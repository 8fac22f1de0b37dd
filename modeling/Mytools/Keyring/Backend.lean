import Mytools.Lib.Bytes
import Mytools.Lib.Table
import Mytools.Lib.Text

/-!
# Keyring items

The items that the keyring's backends store, and the comparisons that all of them share
(`cmd/wsl-keyring/backend.go`). Labels, attributes and secrets are byte strings, as strings are in
Go; a secret that is nil is the empty one.
-/

namespace Keyring

open Lib

abbrev Attributes := Table Bytes Bytes

structure SecretItem where
  id : String
  label : Bytes
  attributes : Attributes
  secret : Bytes

/-- Errors of the backends; `wrapped` is `fmt.Errorf` with a cause. -/
inductive Err where
  | notFound
  | failed (message : String)
  | wrapped (message : String) (cause : Err)
  deriving DecidableEq

/-- A key that is absent counts as an empty value. -/
def attributesMatch (got want : Attributes) : Bool :=
  want.rows.all fun r => (got.get? r.1).getD [] == r.2

def pendingIDPrefix : String := "pending_"

def isPendingID (id : String) : Bool := hasPrefix id pendingIDPrefix

theorem attributesMatch_congr {got got' want : Attributes} (h : Table.Same got got') :
    attributesMatch got want = attributesMatch got' want := by
  unfold attributesMatch
  congr 1
  funext r
  rw [h r.1]

end Keyring
