import LedgerWatch.Table
import LedgerWatch.Watch

/-!
# Telling news from repetition

A channel that re-reads its filter passes on only what changed. The tracker remembers, for each
address, the slot and bytes it last passed on; a read entry is news unless it was served at an
older slot or has the same bytes. What is not passed on is not remembered.
-/

namespace LedgerWatch

structure Tracker where
  last : Table Address (UInt64 × Bytes) := {}
deriving DecidableEq

namespace Tracker

def isNews (t : Tracker) (u : Update) : Bool :=
  match t.last.get? u.address with
  | none => true
  | some (slot, data) => !(u.slot < slot || data == u.data)

def note (t : Tracker) (u : Update) : Tracker := ⟨t.last.insert u.address (u.slot, u.data)⟩

/-- The news of a list of updates, in order, and the tracker after it. -/
def news : Tracker → List Update → List Update × Tracker
  | t, [] => ([], t)
  | t, u :: rest =>
    if t.isNews u then
      let (more, t) := news (t.note u) rest
      (u :: more, t)
    else news t rest

/-- What has been made of the entries of a read so far: the tracker after them, what was passed on,
and how much that was. -/
structure Emission where
  tracker : Tracker
  updates : List Update := []
  count : Nat := 0

def Emission.take (e : Emission) (u : Update) : Emission :=
  if e.tracker.isNews u then ⟨e.tracker.note u, e.updates ++ [u], e.count + 1⟩ else e

/-- Takes up the entries of a read one after another. -/
def emitChanged (t : Tracker) (read : Stamped (List (Address × Bytes))) : Emission :=
  (read.value.map fun (address, data) => ⟨address, data, read.slot⟩).foldl Emission.take
    { tracker := t }

/-- The news of one read. A channel makes no use of how much it is. -/
def absorb (t : Tracker) (read : Stamped (List (Address × Bytes))) : List Update × Tracker :=
  let emission := t.emitChanged read
  (emission.updates, emission.tracker)

theorem foldl_take (e : Emission) (entries : List Update) : entries.foldl Emission.take e =
    ⟨(e.tracker.news entries).2, e.updates ++ (e.tracker.news entries).1,
      e.count + (e.tracker.news entries).1.length⟩ := by
  induction entries generalizing e with
  | nil => simp [news]
  | cons u rest ih =>
    rw [List.foldl_cons, ih, Emission.take, news]
    by_cases passed : e.tracker.isNews u = true
    · simp only [passed, if_true, List.length_cons, List.append_assoc, List.singleton_append]
      rw [Nat.add_assoc, Nat.add_comm 1]
    · simp only [passed, Bool.false_eq_true, if_false]

theorem emitChanged_eq (t : Tracker) (read : Stamped (List (Address × Bytes))) :
    t.emitChanged read =
      let (news, tracker) := t.news (read.value.map fun (address, data) => ⟨address, data, read.slot⟩)
      ⟨tracker, news, news.length⟩ := by
  rw [emitChanged, foldl_take, List.nil_append, Nat.zero_add]

theorem absorb_eq (t : Tracker) (read : Stamped (List (Address × Bytes))) : t.absorb read =
    t.news (read.value.map fun (address, data) => ⟨address, data, read.slot⟩) := by
  rw [absorb, emitChanged_eq]

end Tracker

end LedgerWatch
