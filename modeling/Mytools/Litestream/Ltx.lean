import Std.Data.ExtTreeMap

/-!
# LTX files and the replica client

The part of `superfly/ltx` and of the Litestream client that the replica VFS uses. A page index
is a finite map from page numbers to the place of the page's copy. Transaction IDs, page numbers
and sizes are natural numbers. The client's calls may fail; a listing is an iterator that yields
its files in order and may report an error at its end or when it is closed.
-/

namespace Litestream

/-- The text of an error of the replica client. -/
abbrev ClientError := String

/-- `ltx.Pos` -/
structure Pos where
  txid : Nat := 0
  postApplyChecksum : Nat := 0
  deriving DecidableEq, Repr

/-- `ltx.FileInfo`, the entry of a listing or of a restore plan. -/
structure FileInfo where
  level : Nat
  minTXID : Nat
  maxTXID : Nat
  postApplyChecksum : Nat := 0
  deriving DecidableEq, Repr

/-- The position after the file is applied. -/
def FileInfo.pos (info : FileInfo) : Pos := ⟨info.maxTXID, info.postApplyChecksum⟩

/-- `ltx.Header` -/
structure Header where
  pageSize : Nat
  commit : Nat
  minTXID : Nat
  maxTXID : Nat
  deriving DecidableEq, Repr

/-- `ltx.PageIndexElem`: where a copy of a page is stored. -/
structure PageIndexElem where
  level : Nat
  minTXID : Nat
  maxTXID : Nat
  offset : Nat
  size : Nat
  deriving DecidableEq, Repr

abbrev PageIndex := Std.ExtTreeMap Nat PageIndexElem

/-- `ltx.FileIterator`: `items` in order, then `err`; `closeErr` is `Close`'s error. -/
structure FileIterator where
  items : List FileInfo
  err : Option ClientError := none
  closeErr : Option ClientError := none
  deriving DecidableEq, Repr

/-- The calls on a replica at one moment. `calcRestorePlan` is the plan to the latest
transaction. -/
structure ReplicaClient where
  ltxFiles : (level : Nat) → (seek : Nat) → Except ClientError FileIterator
  calcRestorePlan : Except ClientError (List FileInfo)
  fetchPageIndex : FileInfo → Except ClientError PageIndex
  fetchLTXHeader : FileInfo → Except ClientError Header

end Litestream
