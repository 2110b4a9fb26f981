import LedgerWatch.Watch.Tracker
import Mathlib.Data.List.Destutter
import Mathlib.Data.List.Induction

/-!
# Sightings of one address and their changes

A tracker that is shown one address again and again, at slots that do not go back, passes on the
first of each run of sightings of the same bytes (`Tracker.Remembers.absorb`), and what it
remembers is the last sighting that it passed on. It does not know which bytes decode: bytes of
which nothing can be made begin a run like any other.
-/

namespace LedgerWatch

section Destutter

variable {α : Type} {R : α → α → Prop} [DecidableRel R]

theorem destutter'_concat (a b : α) (l : List α) : (l ++ [b]).destutter' R a =
    l.destutter' R a ++ if ∀ last ∈ (l.destutter' R a).getLast?, R last b then [b] else [] := by
  induction l generalizing a with
  | nil =>
    rw [List.nil_append, List.destutter'_singleton, List.destutter'_nil]
    by_cases differs : R a b <;> simp [differs]
  | cons c l ih =>
    by_cases differs : R a c
    · obtain ⟨x, rest, eq⟩ : ∃ x rest, l.destutter' R c = x :: rest :=
        List.exists_cons_of_ne_nil (List.destutter'_ne_nil _ R)
      rw [List.cons_append, List.destutter'_cons_pos _ differs, ih,
        List.destutter'_cons_pos _ differs, eq, List.getLast?_cons_cons, List.cons_append,
        List.cons_append, List.cons_append]
    · rw [List.cons_append, List.destutter'_cons_neg _ differs, ih,
        List.destutter'_cons_neg _ differs]

/-- Without repetitions of the last one, one more element comes to stand at the end unless it
repeats it. -/
theorem destutter_concat (l : List α) (b : α) : (l ++ [b]).destutter R =
    l.destutter R ++ if ∀ last ∈ (l.destutter R).getLast?, R last b then [b] else [] := by
  cases l with
  | nil => simp
  | cons a l => exact destutter'_concat a b l

end Destutter

/-! ## Runs of sightings -/

variable {seen : List (Stamped Bytes)} {first next : Stamped Bytes}

/-- The first of each run of sightings of the same bytes. -/
def changes (seen : List (Stamped Bytes)) : List (Stamped Bytes) :=
  seen.destutter fun a b => a.value ≠ b.value

/-- The sightings end with a run of the same bytes, of which this is the first. -/
def EndsInRun (seen : List (Stamped Bytes)) (first : Stamped Bytes) : Prop :=
  ∃ before after, seen = before ++ first :: after ∧
    (∀ other ∈ after, other.value = first.value) ∧
    ∀ other ∈ before.getLast?, other.value ≠ first.value

theorem changes_concat_of_eq (last : (changes seen).getLast? = some first)
    (same : first.value = next.value) : changes (seen ++ [next]) = changes seen := by
  rw [changes, destutter_concat, ← changes, last, if_neg (by simpa using same), List.append_nil]

theorem changes_concat_of_ne (differs : ∀ last ∈ (changes seen).getLast?, last.value ≠ next.value) :
    changes (seen ++ [next]) = changes seen ++ [next] := by
  rw [changes, destutter_concat, ← changes, if_pos differs]

theorem EndsInRun.value_eq (run : EndsInRun seen first) :
    ∀ last ∈ seen.getLast?, last.value = first.value := by
  obtain ⟨before, after, rfl, same, -⟩ := run
  intro last mem
  rw [List.getLast?_append_cons] at mem
  rcases List.mem_cons.1 (List.mem_of_getLast? mem) with rfl | mem
  · rfl
  · exact same last mem

/-- The last change is the first of the run in which the sightings end. -/
theorem endsInRun_of_changes (last : (changes seen).getLast? = some first) :
    EndsInRun seen first := by
  induction seen using List.reverseRecOn generalizing first with
  | nil => simp [changes] at last
  | append_singleton seen next ih =>
    by_cases differs : ∀ last ∈ (changes seen).getLast?, last.value ≠ next.value
    · rw [changes_concat_of_ne differs, List.getLast?_concat] at last
      obtain rfl := Option.some.inj last
      refine ⟨seen, [], rfl, nofun, fun other mem => ?_⟩
      cases prior : (changes seen).getLast? with
      | none =>
        rw [List.getLast?_eq_none_iff, changes, List.destutter_eq_nil] at prior
        simp [prior] at mem
      | some prior' => exact (ih prior).value_eq other mem ▸ differs prior' prior
    · obtain ⟨prior, kept, same⟩ : ∃ prior, (changes seen).getLast? = some prior ∧
          prior.value = next.value := by simpa using differs
      rw [changes_concat_of_eq kept same, kept] at last
      obtain rfl := Option.some.inj last
      obtain ⟨before, after, rfl, all, starts⟩ := ih kept
      refine ⟨before, after ++ [next], by simp, fun other mem => ?_, starts⟩
      rcases List.mem_append.1 mem with mem | mem
      · exact all other mem
      · rw [List.mem_singleton.1 mem, same]

theorem changes_ne_nil (next : Stamped Bytes) (seen : List (Stamped Bytes)) :
    changes (seen ++ [next]) ≠ [] := by
  simp [changes, List.destutter_eq_nil]

theorem mem_of_mem_changes (mem : next ∈ changes seen) : next ∈ seen :=
  (List.destutter_sublist ..).subset mem

/-! ## What the tracker remembers -/

namespace Tracker

variable {t : Tracker} {address : Address}

/-- Of the address the tracker has the last change. -/
def Remembers (t : Tracker) (address : Address) (seen : List (Stamped Bytes)) : Prop :=
  t.last.get? address = (changes seen).getLast?.map fun s => (s.slot, s.value)

theorem remembers_nil (address : Address) : Remembers {} address [] := rfl

/-- What the channel makes of a sighting. -/
def sighting (address : Address) (s : Stamped Bytes) : Stamped (List (Address × Bytes)) :=
  ⟨[(address, s.value)], s.slot⟩

/-- The bytes it last passed on are no news, and other bytes are. -/
theorem Remembers.absorb (remembers : t.Remembers address seen) (next : Stamped Bytes)
    (later : ∀ earlier ∈ seen, earlier.slot ≤ next.slot) :
    (t.absorb (sighting address next)).2.Remembers address (seen ++ [next]) ∧
      ((t.absorb (sighting address next)).1 = [] ∧ changes (seen ++ [next]) = changes seen ∨
        (t.absorb (sighting address next)).1 = [⟨address, next.value, next.slot⟩] ∧
          changes (seen ++ [next]) = changes seen ++ [next]) := by
  by_cases differs : ∀ last ∈ (changes seen).getLast?, last.value ≠ next.value
  · have news : t.isNews ⟨address, next.value, next.slot⟩ = true := by
      rw [isNews, remembers]
      cases kept : (changes seen).getLast? with
      | none => rfl
      | some prior =>
        have old := later prior (mem_of_mem_changes (List.mem_of_getLast? kept))
        simpa [differs prior kept] using old
    have absorbed : t.absorb (sighting address next) =
        ([⟨address, next.value, next.slot⟩], t.note ⟨address, next.value, next.slot⟩) := by
      simp [absorb_eq, sighting, Tracker.news, news]
    refine ⟨?_, .inr ⟨by rw [absorbed], changes_concat_of_ne differs⟩⟩
    simp [Remembers, absorbed, note, Table.get?_insert, changes_concat_of_ne differs]
  · obtain ⟨prior, kept, same⟩ : ∃ prior, (changes seen).getLast? = some prior ∧
        prior.value = next.value := by simpa using differs
    have old : t.isNews ⟨address, next.value, next.slot⟩ = false := by
      rw [isNews, remembers, kept]
      simp [same]
    have absorbed : t.absorb (sighting address next) = ([], t) := by
      simp [absorb_eq, sighting, Tracker.news, old]
    refine ⟨?_, .inl ⟨by rw [absorbed], changes_concat_of_eq kept same⟩⟩
    rw [absorbed, Remembers, changes_concat_of_eq kept same]
    exact remembers

end Tracker

end LedgerWatch
