import Mytools.Bridge.Proof.Handle
import Mytools.Lib.Feed

/-!
# Connections to Jetstream (`Run`, `consume`)

The syncer connects through `Subscription`, takes the commits that the server delivers one after the
other, and for each of them reads the store and writes it at most once. `Step` interleaves this with
the transactions of the other parts of the bridge, with the end of a connection at any point, and
with crashes before and after a write.
-/

namespace Bridge.Bluesky

open Lib

/-- What the syncer is doing; `feed` is what the connection still delivers. -/
inductive Phase
  | idle
  | listening (feed : List Event)
  /-- `Handle` has read the state `seen` and is about to write `op`. -/
  | writing (e : Event) (clock : Clock) (seen : DB) (op : Option StoreOp) (feed : List Event)

/-- A call of `Handle` that returned nil: the states that it read, that its write met and that its
write left, and the cursors stored before. -/
structure Handled where
  event : Event
  clock : Clock
  seen : DB
  before : DB
  after : DB
  stored : List Int

structure World where
  db : DB
  phase : Phase := .idle
  /-- The cursors that the syncer's writes left in the store, the newest first. -/
  stored : List Int := []
  /-- The calls of `Handle` that returned nil. -/
  handled : List Handled := []

namespace Syncer

variable (N : Nostr.Library) (C : Codec) (s : Syncer)

/-- The cursor in the store, as a number. -/
def cursorOf (db : DB) : Option Int :=
  (SQLiteStore.cursor db s.scope jetstreamCursor).bind parseInt

/-- The cursors after a write. -/
def store (w : World) (db : DB) : List Int := (s.cursorOf db).toList ++ w.stored

/-- A step of the bridge; `log` are the commits of the targets. -/
inductive Step (log : List Event) : World → World → Prop
  /-- Without a cursor the server starts anywhere. -/
  | connect {w : World} {sub : Subscription} {start : Int} {feed : List Event}
      (hp : w.phase = .idle) (hs : s.subscription w.db = .ok sub)
      (hc : ∀ c, sub.cursor = some c → start = c)
      (hd : Consumer.Delivers Event.timeUS log start feed) :
      Step log w { w with phase := .listening feed }
  | read {w : World} {e : Event} {feed : List Event} {clock : Clock} {op : Option StoreOp}
      (hp : w.phase = .listening (e :: feed)) (h : s.Plan N C clock w.db e op) :
      Step log w { w with phase := .writing e clock w.db op feed }
  /-- The write succeeds, and `Handle` returns nil. -/
  | write {w : World} {e : Event} {clock : Clock} {seen : DB} {op : Option StoreOp}
      {feed : List Event} {db' : DB} (hp : w.phase = .writing e clock seen op feed)
      (h : write N w.db op = .ok db') :
      Step log w ⟨db', .listening feed, s.store w db',
        ⟨e, clock, seen, w.db, db', w.stored⟩ :: w.handled⟩
  /-- The write succeeds, and the process ends before `Handle` returns. -/
  | crash {w : World} {e : Event} {clock : Clock} {seen : DB} {op : Option StoreOp}
      {feed : List Event} {db' : DB} (hp : w.phase = .writing e clock seen op feed)
      (h : write N w.db op = .ok db') :
      Step log w { w with db := db', phase := .idle, stored := s.store w db' }
  /-- The connection ends: by itself, by an error of `Decode` or `Handle`, or with the process. -/
  | drop {w : World} : Step log w { w with phase := .idle }
  /-- A transaction of another part of the bridge. -/
  | other {w : World} {op : StoreOp} {items : List OutboxItem} {db' : DB}
      (h : op.exec N w.db = .ok (db', items))
      (hc : SQLiteStore.cursor db' s.scope jetstreamCursor =
        SQLiteStore.cursor w.db s.scope jetstreamCursor) :
      Step log w { w with db := db' }

/-- The bridge comes from a store without a cursor to `w`. -/
def Runs (log : List Event) (w : World) : Prop :=
  ∃ db, SQLiteStore.cursor db s.scope jetstreamCursor = none ∧
    Relation.ReflTransGen (s.Step N C log) { db } w

end Syncer

end Bridge.Bluesky
