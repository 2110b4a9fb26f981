import LedgerWatch.Proofs.Watch.News
import LedgerWatch.Proofs.Watch.Rereads
import Mathlib.Data.List.Chain

/-!
# The stream of emissions

One tracker is given any reads, at any slots in any order, each with any entries. What it passes on
of one address never goes back in slots and never tells the same bytes twice in a row, and what it
leaves out of a read repeats what it passed on last of the address or is older
(`emissions_in_order`). The table of the tracker changes while the entries of a read are gone
through, so all is said of the updates told before an entry (`newsAfter`), those of the same read
among them.
-/

namespace LedgerWatch

variable {told entries : List Update} {u : Update} {address : Address}

/-- What may be told after `u` of the same address: nothing older, and not the same bytes. -/
def Succeeds (u v : Update) : Prop := u.slot ≤ v.slot ∧ u.data ≠ v.data

def ofAddress (address : Address) (updates : List Update) : List Update :=
  updates.filter (·.address = address)

/-- All entries of these reads. -/
def allFound (reads : List (Stamped (List (Address × Bytes)))) : List Update :=
  reads.flatMap fun read => found (.ok read)

/-- What one tracker has passed on of these reads. -/
def emitted (reads : List (Stamped (List (Address × Bytes)))) : List Update :=
  (Tracker.follow {} reads).2

/-- These updates are the entries, in their order, less such as say nothing new: the last update
told of the address has the same bytes, or is newer. -/
inductive Sifted : List Update → List Update → List Update → Prop
  | done {told : List Update} : Sifted told [] []
  | passed {told entries updates : List Update} (u : Update)
      (rest : Sifted (told ++ [u]) entries updates) : Sifted told (u :: entries) (u :: updates)
  | dropped {told entries updates : List Update} (u : Update) {last : Update}
      (told_last : lastTold told u.address = some last)
      (stale : last.data = u.data ∨ u.slot < last.slot) (rest : Sifted told entries updates) :
      Sifted told (u :: entries) updates

/-! ## News, address by address -/

theorem ofAddress_cons (address : Address) (u : Update) (rest : List Update) :
    ofAddress address (u :: rest) =
      if u.address = address then u :: ofAddress address rest else ofAddress address rest := by
  simp [ofAddress, List.filter_cons]

theorem ofAddress_concat (address : Address) (told : List Update) (u : Update) :
    ofAddress address (told ++ [u]) =
      if u.address = address then ofAddress address told ++ [u] else ofAddress address told := by
  by_cases own : u.address = address <;> simp [ofAddress, own]

theorem lastTold_eq (told : List Update) (address : Address) :
    lastTold told address = (ofAddress address told).getLast? := rfl

theorem lastTold_ofAddress (told : List Update) (address : Address) :
    lastTold (ofAddress address told) address = lastTold told address := by
  rw [lastTold_eq, lastTold_eq, ofAddress, ofAddress, List.filter_filter]
  simp only [Bool.and_self]

theorem isNews_iff : IsNews told u ↔ ∀ last ∈ lastTold told u.address, Succeeds last u := Iff.rfl

theorem isNews_ofAddress : IsNews (ofAddress u.address told) u ↔ IsNews told u := by
  rw [isNews_iff, lastTold_ofAddress, isNews_iff]

/-- What is news of an address is found among what was told of the address. -/
theorem ofAddress_newsAfter (told entries : List Update) (address : Address) :
    ofAddress address (newsAfter told entries) =
      newsAfter (ofAddress address told) (ofAddress address entries) := by
  induction entries generalizing told with
  | nil => rfl
  | cons u rest ih =>
    by_cases own : u.address = address
    · subst own
      rw [ofAddress_cons, if_pos rfl, newsAfter, newsAfter]
      by_cases news : IsNews told u
      · rw [if_pos news, if_pos (isNews_ofAddress.2 news), ofAddress_cons, if_pos rfl, ih,
          ofAddress_concat, if_pos rfl]
      · rw [if_neg news, if_neg (mt isNews_ofAddress.1 news), ih]
    · rw [ofAddress_cons, if_neg own, newsAfter]
      by_cases news : IsNews told u
      · rw [if_pos news, ofAddress_cons, if_neg own, ih, ofAddress_concat, if_neg own]
      · rw [if_neg news, ih]

/-- News are told so that each succeeds the one before it. -/
theorem isChain_newsAfter (chain : (ofAddress address told).IsChain Succeeds) :
    (ofAddress address (told ++ newsAfter told entries)).IsChain Succeeds := by
  induction entries generalizing told with
  | nil => simpa [newsAfter] using chain
  | cons u rest ih =>
    by_cases news : IsNews told u
    · rw [newsAfter, if_pos news, List.append_cons]
      apply ih
      -- The last one told of the address may be an entry of the same read.
      rw [ofAddress_concat]
      by_cases own : u.address = address
      · subst own
        rw [if_pos rfl]
        apply chain.append (.singleton u)
        intro last told_last next mem
        obtain rfl : u = next := by simpa using mem
        exact isNews_iff.1 news last told_last
      · rwa [if_neg own]
    · rw [newsAfter, if_neg news]
      exact ih chain

theorem sifted_newsAfter (told entries : List Update) :
    Sifted told entries (newsAfter told entries) := by
  induction entries generalizing told with
  | nil => exact .done
  | cons u rest ih =>
    rw [newsAfter]
    by_cases news : IsNews told u
    · rw [if_pos news]
      exact .passed u (ih _)
    · rw [if_neg news]
      obtain ⟨last, told_last, stale⟩ : ∃ last, lastTold told u.address = some last ∧
          (last.slot ≤ u.slot → last.data = u.data) := by
        simpa [IsNews] using news
      refine .dropped u told_last ?_ (ih told)
      by_cases recent : last.slot ≤ u.slot
      · exact .inl (stale recent)
      · exact .inr (UInt64.not_le.1 recent)

/-! ## What the tracker passes on -/

theorem emitted_concat (reads : List (Stamped (List (Address × Bytes))))
    (read : Stamped (List (Address × Bytes))) : emitted (reads ++ [read]) =
      emitted reads ++ ((Tracker.follow {} reads).1.emitChanged read).updates := by
  rw [emitted, Tracker.follow, runInputs_concat]
  rfl

theorem recalls_emitted (reads : List (Stamped (List (Address × Bytes)))) :
    (Tracker.follow {} reads).1.Recalls (emitted reads) := by
  induction reads using List.reverseRecOn with
  | nil => exact Tracker.recalls_nil
  | append_singleton reads read ih =>
    obtain ⟨news, recalls⟩ := ih.absorb read
    rw [← news] at recalls
    rw [emitted_concat, Tracker.follow, runInputs_concat]
    exact recalls

theorem updates_emitChanged (reads : List (Stamped (List (Address × Bytes))))
    (read : Stamped (List (Address × Bytes))) :
    ((Tracker.follow {} reads).1.emitChanged read).updates =
      newsAfter (emitted reads) (found (.ok read)) :=
  ((recalls_emitted reads).absorb read).1

/-- Where a read ends makes no difference. -/
theorem emitted_eq (reads : List (Stamped (List (Address × Bytes)))) :
    emitted reads = newsAfter [] (allFound reads) := by
  induction reads using List.reverseRecOn with
  | nil => rfl
  | append_singleton reads read ih =>
    have split : allFound (reads ++ [read]) = allFound reads ++ found (.ok read) := by
      simp [allFound]
    rw [emitted_concat, updates_emitChanged, split, newsAfter_append, List.nil_append, ← ih]

/-- What a tracker makes of a read when this was told before. -/
structure Emits (told : List Update) (read : Stamped (List (Address × Bytes)))
    (emission : Tracker.Emission) : Prop where
  counted : emission.count = emission.updates.length
  drawn : ∃ kept : List (Address × Bytes), kept.Sublist read.value ∧
    emission.updates = kept.map fun (address, data) => ⟨address, data, read.slot⟩
  sifted : Sifted told (found (.ok read)) emission.updates

theorem emits (reads : List (Stamped (List (Address × Bytes))))
    (read : Stamped (List (Address × Bytes))) :
    Emits (emitted reads) read ((Tracker.follow {} reads).1.emitChanged read) where
  counted := by rw [Tracker.emitChanged_eq]
  drawn := by
    rw [updates_emitChanged]
    exact List.sublist_map_iff.1 (newsAfter_sublist _ _)
  sifted := by
    rw [updates_emitChanged]
    exact sifted_newsAfter _ _

/-- Of each address, what is emitted of any reads is in order and never the same twice in a row; the
emissions of one more read are drawn from its entries, less those that say nothing new; and they
hang on nothing but the entries of the address. -/
theorem emissions_in_order (reads : List (Stamped (List (Address × Bytes)))) :
    (∀ address, (ofAddress address (emitted reads)).Pairwise (fun u v => u.slot ≤ v.slot) ∧
      (ofAddress address (emitted reads)).IsChain fun u v => u.data ≠ v.data) ∧
    (∀ read, emitted (reads ++ [read]) =
        emitted reads ++ ((Tracker.follow {} reads).1.emitChanged read).updates ∧
      Emits (emitted reads) read ((Tracker.follow {} reads).1.emitChanged read)) ∧
    ∀ other address, ofAddress address (allFound other) = ofAddress address (allFound reads) →
      ofAddress address (emitted other) = ofAddress address (emitted reads) := by
  refine ⟨?_, fun read => ⟨emitted_concat reads read, emits reads read⟩, ?_⟩
  · intro address
    have chain : (ofAddress address (emitted reads)).IsChain Succeeds := by
      have nothing : (ofAddress address []).IsChain Succeeds := .nil
      rw [emitted_eq]
      exact isChain_newsAfter nothing
    constructor
    · have : IsTrans Update fun u v => u.slot ≤ v.slot := ⟨fun _ _ _ => UInt64.le_trans⟩
      exact (chain.imp fun _ _ => And.left).pairwise
    · exact chain.imp fun _ _ => And.right
  · intro other address same
    rw [emitted_eq, emitted_eq, ofAddress_newsAfter, ofAddress_newsAfter, same]

def firstAddress : Address := ⟨Vector.replicate 32 5⟩

def secondAddress : Address := ⟨Vector.replicate 32 6⟩

/-- Reads that show the first address several times, and one of them late. -/
def mixedReads : List (Stamped (List (Address × Bytes))) :=
  [⟨[(firstAddress, [1]), (secondAddress, [7]), (firstAddress, [2]), (firstAddress, [2])], 10⟩,
    ⟨[(firstAddress, [1]), (firstAddress, [3])], 5⟩, ⟨[(firstAddress, [1])], 11⟩]

/-- The same entries of the first address, and nothing else. -/
def onlyFirst : List (Stamped (List (Address × Bytes))) :=
  [⟨[(firstAddress, [1])], 10⟩, ⟨[(firstAddress, [2]), (firstAddress, [2])], 10⟩,
    ⟨[(firstAddress, [1]), (firstAddress, [3])], 5⟩, ⟨[(firstAddress, [1])], 11⟩]

theorem emissions_in_order_mixed :
    emitted mixedReads = [⟨firstAddress, [1], 10⟩, ⟨secondAddress, [7], 10⟩,
      ⟨firstAddress, [2], 10⟩, ⟨firstAddress, [1], 11⟩] ∧
    ofAddress firstAddress (allFound onlyFirst) = ofAddress firstAddress (allFound mixedReads) ∧
    ofAddress firstAddress (emitted onlyFirst) = ofAddress firstAddress (emitted mixedReads) := by
  have same : ofAddress firstAddress (allFound onlyFirst) =
      ofAddress firstAddress (allFound mixedReads) := by decide
  exact ⟨by decide, same, (emissions_in_order mixedReads).2.2 onlyFirst firstAddress same⟩

end LedgerWatch
