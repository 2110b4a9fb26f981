import LedgerWatch.Proofs.History
import LedgerWatch.Watch.Tracker
import Mathlib.Data.List.Induction
import Mathlib.Data.List.Infix

/-!
# Reads that arrive out of order

Reads may be answered at any slots in any order. What a tracker last passed on of an account is
what the newest read of it showed, as long as no read slips through (`rereads_converge_iff`): one
that is out of date and shows other bytes, yet is not older than the read that was passed on last.
That can be, since a read that shows the bytes passed on last leaves no trace, however new it is
(`outdated_read_slips`).
-/

namespace LedgerWatch

/-- Which bytes each account has at each slot. -/
abbrev AccountHistory : Type := Address → UInt64 → Bytes

/-- A read of these accounts: each with the bytes that it has at the slot of the read. -/
def AccountHistory.shown (history : AccountHistory) (read : Stamped (List Address)) :
    Stamped (List (Address × Bytes)) :=
  read.map fun present => present.map fun address => (address, history address read.slot)

/-- The slots at which an account was read, in the order of the reads. -/
def sightedAt (address : Address) (reads : List (Stamped (List Address))) : List UInt64 :=
  (reads.filter fun read => address ∈ read.value).map Stamped.slot

namespace Tracker

/-- Takes reads one after another, and gives all that is passed on. -/
def follow (t : Tracker) (reads : List (Stamped (List (Address × Bytes)))) : Tracker × List Update :=
  runInputs (fun t read => (t.absorb read).swap) t reads

/-- What has been passed on of an account when these reads have been taken. -/
def passedOn (history : AccountHistory) (reads : List (Stamped (List Address))) (address : Address) :
    List Update :=
  (follow {} (reads.map history.shown)).2.filter fun update => update.address = address

end Tracker

/-! ## Slots of one account -/

section Slots

variable {bytes : UInt64 → Bytes} {seen : List UInt64} {slot lead held newest : UInt64}

/-- The newest read so far. -/
def Newest (seen : List UInt64) (newest : UInt64) : Prop :=
  newest ∈ seen ∧ ∀ slot ∈ seen, slot ≤ newest

/-- The read was newer than all before it. -/
def WasNewest (seen : List UInt64) (slot : UInt64) : Prop :=
  ∃ before after, seen = before ++ slot :: after ∧ ∀ earlier ∈ before, earlier < slot

/-- The read was the newest when it came, and all newer ones showed the same bytes. -/
structure Leads (bytes : UInt64 → Bytes) (seen : List UInt64) (lead : UInt64) : Prop where
  was : WasNewest seen lead
  same : ∀ slot, WasNewest seen slot → lead ≤ slot → bytes slot = bytes lead

/-- A read at this slot is out of date and shows other bytes than the newest, but it is not older
than the read that first showed those. -/
inductive Slips (bytes : UInt64 → Bytes) (seen : List UInt64) (slot : UInt64) : Prop
  | intro (newer lead : UInt64) (mem : newer ∈ seen) (outdated : slot < newer)
      (leads : Leads bytes seen lead) (recent : lead ≤ slot) (differs : bytes slot ≠ bytes lead)

theorem WasNewest.mem (h : WasNewest seen slot) : slot ∈ seen := by
  obtain ⟨before, after, rfl, -⟩ := h
  simp

theorem wasNewest_concat {next : UInt64} : WasNewest (seen ++ [next]) slot ↔
    WasNewest seen slot ∨ slot = next ∧ ∀ earlier ∈ seen, earlier < next := by
  constructor
  · intro ⟨before, after, split, newer⟩
    obtain ⟨rfl, rfl, -⟩ | ⟨between, -, rfl⟩ := History.concat_eq_append_cons_iff.1 split
    · exact .inr ⟨rfl, newer⟩
    · exact .inl ⟨before, between, rfl, newer⟩
  · rintro (⟨before, after, rfl, newer⟩ | ⟨rfl, newer⟩)
    · exact ⟨before, after ++ [next], by simp, newer⟩
    · exact ⟨seen, [], rfl, newer⟩

/-- The newest read was the newest when it first came. -/
theorem Newest.was (h : Newest seen newest) : WasNewest seen newest := by
  obtain ⟨before, after, rfl, new⟩ := List.eq_append_cons_of_mem h.1
  refine ⟨before, after, rfl, ?_⟩
  intro earlier mem
  have le : earlier ≤ newest := h.2 earlier (by simp [mem])
  apply UInt64.lt_of_le_of_ne le
  rintro rfl
  exact new mem

theorem exists_newest (some : seen ≠ []) : ∃ newest, Newest seen newest := by
  induction seen with
  | nil => exact absurd rfl some
  | cons slot rest ih =>
    by_cases none : rest = []
    · subst none
      exact ⟨slot, by simp [Newest]⟩
    · obtain ⟨newest, mem, le⟩ := ih none
      rcases UInt64.le_total slot newest with below | above
      · refine ⟨newest, List.mem_cons_of_mem _ mem, ?_⟩
        intro other mem
        rcases List.mem_cons.1 mem with rfl | mem
        · exact below
        · exact le other mem
      · refine ⟨slot, List.mem_cons_self, ?_⟩
        intro other mem
        rcases List.mem_cons.1 mem with rfl | mem
        · exact UInt64.le_refl _
        · exact UInt64.le_trans (le other mem) above

/-- Whether a read at this slot is passed on when the last one passed on was at `held?`. -/
def passes (bytes : UInt64 → Bytes) (held? : Option UInt64) (slot : UInt64) : Bool :=
  match held? with
  | none => true
  | some held => decide (held ≤ slot ∧ bytes held ≠ bytes slot)

/-- The slot of the last read passed on, after one more. -/
def heldNext (bytes : UInt64 → Bytes) (held? : Option UInt64) (slot : UInt64) : Option UInt64 :=
  if passes bytes held? slot then some slot else held?

/-- The slot held is that of the first read that showed the bytes of the newest. -/
structure First (bytes : UInt64 → Bytes) (seen : List UInt64) (held : UInt64) : Prop where
  leads : Leads bytes seen held
  least : ∀ lead, Leads bytes seen lead → held ≤ lead

/-- The slot held is right for the reads so far. -/
def Current (bytes : UInt64 → Bytes) (seen : List UInt64) : Option UInt64 → Prop
  | none => seen = []
  | some held => First bytes seen held

theorem First.bytes_eq (h : First bytes seen held) (new : Newest seen newest) :
    bytes newest = bytes held :=
  h.leads.same newest new.was (new.2 held h.leads.was.mem)

theorem first_singleton (slot : UInt64) : First bytes [slot] slot where
  leads := by
    refine ⟨⟨[], [], rfl, nofun⟩, ?_⟩
    intro other was _
    rw [List.mem_singleton.1 was.mem]
  least lead leads := by
    rw [List.mem_singleton.1 leads.was.mem]
    exact UInt64.le_refl _

/-- What leads after one more read led before, unless it is that read. -/
theorem Leads.of_concat {next : UInt64} (h : Leads bytes (seen ++ [next]) lead)
    (old : WasNewest seen lead) : Leads bytes seen lead :=
  ⟨old, fun slot was le => h.same slot (wasNewest_concat.2 (.inl was)) le⟩

theorem First.concat_newest {next : UInt64} (h : First bytes seen held)
    (new : ∀ earlier ∈ seen, earlier < next) :
    ∃ held', heldNext bytes (some held) next = some held' ∧ First bytes (seen ++ [next]) held' := by
  have below : held < next := new held h.leads.was.mem
  have was : WasNewest (seen ++ [next]) next := wasNewest_concat.2 (.inr ⟨rfl, new⟩)
  by_cases differs : bytes held = bytes next
  · refine ⟨held, by simp [heldNext, passes, differs], ⟨⟨?_, ?_⟩, ?_⟩⟩
    · exact wasNewest_concat.2 (.inl h.leads.was)
    · intro slot mem le
      rcases wasNewest_concat.1 mem with old | ⟨rfl, -⟩
      · exact h.leads.same slot old le
      · exact differs.symm
    · intro lead leads
      rcases wasNewest_concat.1 leads.was with old | ⟨rfl, -⟩
      · exact h.least lead (leads.of_concat old)
      · exact UInt64.le_of_lt below
  · refine ⟨next, by simp [heldNext, passes, differs, UInt64.le_of_lt below], ⟨⟨was, ?_⟩, ?_⟩⟩
    · intro slot mem le
      rcases wasNewest_concat.1 mem with old | ⟨rfl, -⟩
      · exact absurd (new slot old.mem) (UInt64.not_lt.2 le)
      · rfl
    · intro lead leads
      rcases wasNewest_concat.1 leads.was with old | ⟨rfl, -⟩
      · -- An older lead would have shown the new read's bytes, and so would the slot held.
        have shown := leads.same next was (UInt64.le_of_lt (new lead old.mem))
        have back := (leads.of_concat old).same
        have same := h.leads.same lead old (h.least lead (leads.of_concat old))
        exact absurd (same.symm.trans shown.symm) differs
      · exact UInt64.le_refl _

/-- A read that is not newer than all before it changes nothing, unless it slips through. -/
theorem First.concat_outdated {next : UInt64} (h : First bytes seen held)
    (old : ¬ ∀ earlier ∈ seen, earlier < next) (kept : ¬ Slips bytes seen next) :
    heldNext bytes (some held) next = some held ∧ First bytes (seen ++ [next]) held := by
  have same (slot : UInt64) : WasNewest (seen ++ [next]) slot ↔ WasNewest seen slot := by
    rw [wasNewest_concat]
    simp [old]
  have leads (lead : UInt64) : Leads bytes (seen ++ [next]) lead ↔ Leads bytes seen lead := by
    constructor
    · intro leads
      exact leads.of_concat ((same lead).1 leads.was)
    · intro leads
      exact ⟨(same lead).2 leads.was, fun slot was le => leads.same slot ((same slot).1 was) le⟩
  refine ⟨?_, ⟨(leads held).2 h.leads, fun lead l => h.least lead ((leads lead).1 l)⟩⟩
  have stays : passes bytes (some held) next = false := by
    apply decide_eq_false
    rintro ⟨recent, differs⟩
    obtain ⟨newest, new⟩ := exists_newest (List.ne_nil_of_mem h.leads.was.mem)
    have shown := h.bytes_eq new
    obtain ⟨earlier, mem, notBelow⟩ : ∃ earlier ∈ seen, next ≤ earlier := by
      simpa [UInt64.not_lt] using old
    have le := UInt64.le_trans notBelow (new.2 earlier mem)
    have apart : next ≠ newest := by
      rintro rfl
      exact differs shown.symm
    exact kept ⟨newest, held, new.1, UInt64.lt_of_le_of_ne le apart, h.leads, recent,
      Ne.symm differs⟩
  rw [heldNext, stays]
  rfl

theorem Current.concat {held? : Option UInt64} {next : UInt64} (h : Current bytes seen held?)
    (kept : ¬ Slips bytes seen next) :
    Current bytes (seen ++ [next]) (heldNext bytes held? next) := by
  cases held? with
  | none =>
    obtain rfl : seen = [] := h
    exact first_singleton next
  | some held =>
    have first : First bytes seen held := h
    by_cases new : ∀ earlier ∈ seen, earlier < next
    · obtain ⟨held', eq, first'⟩ := first.concat_newest new
      rw [eq]
      exact first'
    · obtain ⟨eq, first'⟩ := first.concat_outdated new kept
      rw [eq]
      exact first'

/-- A read that slips through is passed on, and the newest one showed other bytes. -/
theorem Current.slips {held? : Option UInt64} {next : UInt64} (h : Current bytes seen held?)
    (slips : Slips bytes seen next) : heldNext bytes held? next = some next ∧
      ∃ newest, Newest (seen ++ [next]) newest ∧ bytes next ≠ bytes newest := by
  obtain ⟨newer, lead, mem, outdated, leads, recent, differs⟩ := slips
  cases held? with
  | none =>
    obtain rfl : seen = [] := h
    cases mem
  | some held =>
    have first : First bytes seen held := h
    have le := first.least lead leads
    have same : bytes lead = bytes held := first.leads.same lead leads.was le
    obtain ⟨newest, new⟩ := exists_newest (List.ne_nil_of_mem mem)
    constructor
    · have passed : passes bytes (some held) next = true :=
        decide_eq_true ⟨UInt64.le_trans le recent, fun eq => differs (eq ▸ same.symm ▸ rfl)⟩
      rw [heldNext, passed]
      rfl
    · refine ⟨newest, ⟨List.mem_append_left _ new.1, ?_⟩, ?_⟩
      · intro slot mem'
        rcases List.mem_append.1 mem' with mem' | last
        · exact new.2 slot mem'
        · rw [List.mem_singleton.1 last]
          exact UInt64.le_of_lt (UInt64.lt_of_lt_of_le outdated (new.2 newer mem))
      · rw [first.bytes_eq new, ← same]
        exact differs

end Slots

/-! ## What the tracker holds -/

namespace Tracker

variable {history : AccountHistory} {t : Tracker} {address : Address} {held? : Option UInt64}

/-- Of the address the tracker has the bytes at this slot. -/
def Holds (history : AccountHistory) (t : Tracker) (address : Address) (held? : Option UInt64) :
    Prop :=
  t.last.get? address = held?.map fun held => (held, history address held)

/-- The update of an address at a slot. -/
def updateAt (history : AccountHistory) (address : Address) (slot : UInt64) : Update :=
  ⟨address, history address slot, slot⟩

theorem Holds.isNews (h : Holds history t address held?) (slot : UInt64) :
    t.isNews (updateAt history address slot) = passes (history address) held? slot := by
  rw [Tracker.isNews, updateAt, h]
  cases held? with
  | none => rfl
  | some held =>
    simp only [Option.map_some, passes, Bool.not_or, Bool.decide_and, decide_not,
      ← UInt64.not_lt, beq_eq_decide]

theorem Holds.note_self (history : AccountHistory) (t : Tracker) (address : Address) (slot : UInt64) :
    Holds history (t.note (updateAt history address slot)) address (some slot) := by
  rw [Holds, note, updateAt, Table.get?_insert, if_pos rfl]
  rfl

theorem Holds.note_other (h : Holds history t address held?) {other : Address}
    (apart : other ≠ address) (slot : UInt64) :
    Holds history (t.note (updateAt history other slot)) address held? := by
  rw [Holds, note, updateAt, Table.get?_insert, if_neg apart]
  exact h

/-- Once a read at a slot has been taken, nothing more at that slot is passed on. -/
theorem not_passes_heldNext (bytes : UInt64 → Bytes) (held? : Option UInt64) (slot : UInt64) :
    passes bytes (heldNext bytes held? slot) slot = false := by
  unfold heldNext
  by_cases passed : passes bytes held? slot = true
  · rw [if_pos passed]
    simp [passes]
  · rw [if_neg passed]
    exact Bool.eq_false_iff.2 passed

theorem heldNext_self (bytes : UInt64 → Bytes) (held? : Option UInt64) (slot : UInt64) :
    heldNext bytes (heldNext bytes held? slot) slot = heldNext bytes held? slot := by
  rw [heldNext, not_passes_heldNext]
  rfl

/-- A read of several accounts, repeated or not, is one read of each as far as that one goes. -/
theorem Holds.news (h : Holds history t address held?) (slot : UInt64) (present : List Address) :
    Holds history (t.news (present.map fun other => updateAt history other slot)).2 address
      (if address ∈ present then heldNext (history address) held? slot else held?) ∧
    (t.news (present.map fun other => updateAt history other slot)).1.filter
      (fun update => update.address = address) =
        if address ∈ present ∧ passes (history address) held? slot = true then
          [updateAt history address slot]
        else [] := by
  induction present generalizing t held? with
  | nil => exact ⟨h, rfl⟩
  | cons other rest ih =>
    rw [List.map_cons, Tracker.news]
    by_cases same : other = address
    · subst same
      rw [h.isNews]
      by_cases passed : passes (history other) held? slot = true
      · have next : heldNext (history other) held? slot = some slot := by rw [heldNext, if_pos passed]
        obtain ⟨holds, none⟩ := ih (Holds.note_self history t other slot)
        have quiet := not_passes_heldNext (history other) held? slot
        have again := heldNext_self (history other) held? slot
        rw [next] at quiet again
        simp only [again, ite_self, quiet, Bool.false_eq_true, and_false, if_false] at holds none
        simp only [passed, if_true, List.mem_cons, true_or, next, and_self]
        refine ⟨holds, ?_⟩
        rw [List.filter_cons_of_pos (by simp [updateAt]), none]
      · obtain ⟨holds, none⟩ := ih h
        have stays : heldNext (history other) held? slot = held? := by rw [heldNext, if_neg passed]
        simp only [stays, ite_self, passed, Bool.false_eq_true, and_false, if_false] at holds none
        simp only [passed, Bool.false_eq_true, if_false, List.mem_cons, true_or, if_true, stays,
          and_false]
        exact ⟨holds, none⟩
    · have there : address ∈ other :: rest ↔ address ∈ rest := by
        simp [Ne.symm same]
      simp only [there]
      by_cases passed : t.isNews (updateAt history other slot) = true
      · obtain ⟨holds, news⟩ := ih (h.note_other same slot)
        simp only [passed, if_true]
        refine ⟨holds, ?_⟩
        rw [List.filter_cons_of_neg (by simp [updateAt, same]), news]
      · simp only [passed]
        exact ih h

theorem absorb_shown (t : Tracker) (history : AccountHistory) (read : Stamped (List Address)) :
    t.absorb (history.shown read) =
      t.news (read.value.map fun other => updateAt history other read.slot) := by
  rw [absorb_eq, AccountHistory.shown, Stamped.map, List.map_map]
  rfl

theorem sightedAt_concat (address : Address) (reads : List (Stamped (List Address)))
    (read : Stamped (List Address)) : sightedAt address (reads ++ [read]) =
      if address ∈ read.value then sightedAt address reads ++ [read.slot]
      else sightedAt address reads := by
  unfold sightedAt
  by_cases mem : address ∈ read.value
  · simp [mem]
  · simp [mem]

/-- The slot of the last read of the address passed on. -/
def heldAfter (history : AccountHistory) (address : Address) (reads : List (Stamped (List Address))) :
    Option UInt64 :=
  (sightedAt address reads).foldl (heldNext (history address)) none

theorem heldAfter_concat (history : AccountHistory) (address : Address)
    (reads : List (Stamped (List Address))) (read : Stamped (List Address)) :
    heldAfter history address (reads ++ [read]) =
      if address ∈ read.value then
        heldNext (history address) (heldAfter history address reads) read.slot
      else heldAfter history address reads := by
  rw [heldAfter, sightedAt_concat]
  split
  · exact List.foldl_append
  · rfl

theorem holds_follow (history : AccountHistory) (reads : List (Stamped (List Address)))
    (address : Address) : Holds history (follow {} (reads.map history.shown)).1 address
      (heldAfter history address reads) := by
  induction reads using List.reverseRecOn with
  | nil => rfl
  | append_singleton reads read ih =>
    rw [List.map_append, List.map_singleton, follow, runInputs_concat, ← follow, heldAfter_concat]
    rw [absorb_shown]
    exact (ih.news read.slot read.value).1

theorem passedOn_concat (history : AccountHistory) (reads : List (Stamped (List Address)))
    (read : Stamped (List Address)) (address : Address) :
    passedOn history (reads ++ [read]) address = passedOn history reads address ++
      if address ∈ read.value ∧
          passes (history address) (heldAfter history address reads) read.slot = true then
        [updateAt history address read.slot]
      else [] := by
  have news := ((holds_follow history reads address).news read.slot read.value).2
  rw [passedOn, List.map_append, List.map_singleton, follow, runInputs_concat, List.filter_append,
    ← follow, ← passedOn, ← news, absorb_shown, Prod.snd_swap]

/-- What was passed on last is the account at the slot held. -/
theorem getLast?_passedOn (history : AccountHistory) (reads : List (Stamped (List Address)))
    (address : Address) : (passedOn history reads address).getLast? =
      (heldAfter history address reads).map (updateAt history address) := by
  induction reads using List.reverseRecOn with
  | nil => rfl
  | append_singleton reads read ih =>
    rw [passedOn_concat, heldAfter_concat, heldNext]
    by_cases mem : address ∈ read.value
    · by_cases passed : passes (history address) (heldAfter history address reads) read.slot = true
      · simp [mem, passed]
      · simp [mem, passed, ih]
    · simp [mem, ih]

end Tracker

/-! ## Convergence -/

open Tracker

/-- What was last passed on of the account, if it was read at all, are the bytes that its newest
read showed. -/
def Converged (history : AccountHistory) (reads : List (Stamped (List Address))) (address : Address) :
    Prop :=
  ∀ newest, Newest (sightedAt address reads) newest →
    ∃ update, (passedOn history reads address).getLast? = some update ∧
      update.data = history address newest

section Converged

variable {history : AccountHistory} {reads : List (Stamped (List Address))}
  {read : Stamped (List Address)} {address : Address}

theorem converged_iff : Converged history reads address ↔
    ∀ newest, Newest (sightedAt address reads) newest →
      ∃ held, heldAfter history address reads = some held ∧
        history address held = history address newest := by
  unfold Converged
  simp only [getLast?_passedOn, Option.map_eq_some_iff]
  apply forall_congr'
  intro newest
  apply imp_congr_right
  intro _
  constructor
  · rintro ⟨_, ⟨held, eq, rfl⟩, data⟩
    exact ⟨held, eq, data⟩
  · rintro ⟨held, eq, data⟩
    exact ⟨_, ⟨held, eq, rfl⟩, data⟩

theorem converged_of_current
    (current : Current (history address) (sightedAt address reads) (heldAfter history address reads)) :
    Converged history reads address := by
  apply converged_iff.2
  intro newest new
  cases held : heldAfter history address reads with
  | none =>
    rw [held] at current
    have unseen : sightedAt address reads = [] := current
    rw [unseen] at new
    cases new.1
  | some slot =>
    rw [held] at current
    have first : First (history address) (sightedAt address reads) slot := current
    exact ⟨slot, rfl, (first.bytes_eq new).symm⟩

/-- No read of the account slips through. -/
def NoneSlips (history : AccountHistory) (reads : List (Stamped (List Address))) (address : Address) :
    Prop :=
  ∀ before read, before ++ [read] <+: reads → address ∈ read.value →
    ¬ Slips (history address) (sightedAt address before) read.slot

theorem noneSlips_concat : NoneSlips history (reads ++ [read]) address ↔
    NoneSlips history reads address ∧ (address ∈ read.value →
      ¬ Slips (history address) (sightedAt address reads) read.slot) := by
  constructor
  · intro clean
    constructor
    · intro before read' le
      exact clean before read' (le.trans (List.prefix_append _ _))
    · exact clean reads read (List.prefix_refl _)
  · rintro ⟨clean, last⟩ before read' le
    rcases List.prefix_concat_iff.1 le with eq | le
    · obtain ⟨rfl, rfl⟩ := List.append_inj' eq rfl |>.imp id List.singleton_inj.1
      exact last
    · exact clean before read' le

theorem current_of_noneSlips (clean : NoneSlips history reads address) :
    Current (history address) (sightedAt address reads) (heldAfter history address reads) := by
  induction reads using List.reverseRecOn with
  | nil => rfl
  | append_singleton reads read ih =>
    obtain ⟨clean, last⟩ := noneSlips_concat.1 clean
    rw [sightedAt_concat, heldAfter_concat]
    by_cases mem : address ∈ read.value
    · rw [if_pos mem, if_pos mem]
      exact (ih clean).concat (last mem)
    · rw [if_neg mem, if_neg mem]
      exact ih clean

/-- The first read that slips through leaves the account behind its newest read. -/
theorem not_converged_of_slips (clean : NoneSlips history reads address) (mem : address ∈ read.value)
    (slips : Slips (history address) (sightedAt address reads) read.slot) :
    ¬ Converged history (reads ++ [read]) address := by
  intro converged
  obtain ⟨passed, newest, new, differs⟩ := (current_of_noneSlips clean).slips slips
  have seen : sightedAt address (reads ++ [read]) = sightedAt address reads ++ [read.slot] := by
    rw [sightedAt_concat, if_pos mem]
  rw [← seen] at new
  obtain ⟨held, eq, same⟩ := converged_iff.1 converged newest new
  rw [heldAfter_concat, if_pos mem, passed] at eq
  cases eq
  exact differs same

theorem noneSlips_of_converged
    (converged : ∀ before, before <+: reads → Converged history before address) :
    NoneSlips history reads address := by
  induction reads using List.reverseRecOn with
  | nil =>
    intro before read le
    exact absurd (List.prefix_nil.1 le) (by simp)
  | append_singleton reads read ih =>
    have clean := ih fun before le => converged before (le.trans (List.prefix_append _ _))
    apply noneSlips_concat.2
    refine ⟨clean, ?_⟩
    intro mem slips
    exact not_converged_of_slips clean mem slips (converged _ (List.prefix_refl _))

theorem heldAfter_mem {held : UInt64} (h : heldAfter history address reads = some held) :
    held ∈ sightedAt address reads := by
  induction reads using List.reverseRecOn with
  | nil => cases h
  | append_singleton reads read ih =>
    rw [heldAfter_concat] at h
    rw [sightedAt_concat]
    by_cases mem : address ∈ read.value
    · rw [if_pos mem, heldNext] at h
      rw [if_pos mem]
      split at h
      · cases h
        simp
      · exact List.mem_append_left _ (ih h)
    · rw [if_neg mem] at h
      rw [if_neg mem]
      exact ih h

/-- A read that is as new as any leaves what it showed, whatever came before. -/
theorem converged_of_newest (mem : address ∈ read.value)
    (new : Newest (sightedAt address (reads ++ [read])) read.slot) :
    Converged history (reads ++ [read]) address := by
  apply converged_iff.2
  intro newest new'
  obtain rfl : newest = read.slot := UInt64.le_antisymm (new.2 _ new'.1) (new'.2 _ new.1)
  rw [heldAfter_concat, if_pos mem, heldNext]
  cases held : heldAfter history address reads with
  | none => exact ⟨read.slot, rfl, rfl⟩
  | some slot =>
    have seen : slot ∈ sightedAt address (reads ++ [read]) := by
      rw [sightedAt_concat, if_pos mem]
      exact List.mem_append_left _ (heldAfter_mem held)
    have le : slot ≤ read.slot := new.2 slot seen
    by_cases differs : history address slot = history address read.slot
    · exact ⟨slot, by simp [passes, differs], differs⟩
    · exact ⟨read.slot, by simp [passes, differs, le], rfl⟩

theorem le_heldAfter {update : Update} (mem : update ∈ passedOn history reads address) :
    ∃ held, heldAfter history address reads = some held ∧ update.slot ≤ held := by
  induction reads using List.reverseRecOn with
  | nil => cases mem
  | append_singleton reads read ih =>
    rw [passedOn_concat] at mem
    rw [heldAfter_concat]
    by_cases next : address ∈ read.value ∧
        passes (history address) (heldAfter history address reads) read.slot = true
    · obtain ⟨seen, passed⟩ := next
      rw [if_pos ⟨seen, passed⟩] at mem
      rw [if_pos seen, heldNext, if_pos passed]
      refine ⟨read.slot, rfl, ?_⟩
      rcases List.mem_append.1 mem with earlier | last
      · obtain ⟨held, eq, le⟩ := ih earlier
        rw [eq] at passed
        exact UInt64.le_trans le (of_decide_eq_true passed).1
      · rw [List.mem_singleton.1 last]
        exact UInt64.le_refl _
    · rw [if_neg next, List.append_nil] at mem
      obtain ⟨held, eq, le⟩ := ih mem
      refine ⟨held, ?_, le⟩
      by_cases seen : address ∈ read.value
      · rw [if_pos seen, heldNext, if_neg (fun passed => next ⟨seen, passed⟩), eq]
      · rw [if_neg seen, eq]

/-- Nothing older is passed on after an update. -/
theorem pairwise_passedOn (history : AccountHistory) (reads : List (Stamped (List Address)))
    (address : Address) : (passedOn history reads address).Pairwise fun u v => u.slot ≤ v.slot := by
  induction reads using List.reverseRecOn with
  | nil => exact .nil
  | append_singleton reads read ih =>
    rw [passedOn_concat]
    split
    · rename_i next
      apply List.pairwise_append.2
      refine ⟨ih, List.pairwise_singleton _ _, ?_⟩
      intro update mem last eq
      obtain ⟨held, some, le⟩ := le_heldAfter mem
      have passed := next.2
      rw [some] at passed
      rw [List.mem_singleton.1 eq]
      exact UInt64.le_trans le (of_decide_eq_true passed).1
    · rwa [List.append_nil]

end Converged

/-- An account is what its newest read showed after each of these reads exactly if none of them
slips through. In any case a read as new as any puts it right, and no update is followed by an
older one. -/
theorem rereads_converge_iff (history : AccountHistory) (reads : List (Stamped (List Address)))
    (address : Address) :
    ((∀ before, before <+: reads → Converged history before address) ↔
      NoneSlips history reads address) ∧
    (∀ read : Stamped (List Address), address ∈ read.value →
      Newest (sightedAt address (reads ++ [read])) read.slot →
        Converged history (reads ++ [read]) address) ∧
    (passedOn history reads address).Pairwise fun u v => u.slot ≤ v.slot := by
  refine ⟨⟨noneSlips_of_converged, ?_⟩, fun read mem new => converged_of_newest mem new,
    pairwise_passedOn history reads address⟩
  intro clean before le
  apply converged_of_current
  apply current_of_noneSlips
  intro earlier read le'
  exact clean earlier read (le'.trans le)

/-! ## Bytes that change and change back -/

def changingAddress : Address := ⟨Vector.replicate 32 1⟩

/-- Other bytes at slot 20 than before and after. -/
def changingBack : AccountHistory := fun _ slot => if slot = 20 then [2] else [1]

/-- At slot 30 nothing seems to have happened, and the read at slot 20 is late. -/
def lateReads : List (Stamped (List Address)) :=
  [⟨[changingAddress], 10⟩, ⟨[changingAddress], 30⟩, ⟨[changingAddress], 20⟩]

theorem outdated_read_slips :
    Newest (sightedAt changingAddress lateReads) 30 ∧
    (passedOn changingBack lateReads changingAddress).getLast? = some ⟨changingAddress, [2], 20⟩ ∧
    changingBack changingAddress 30 = [1] ∧
    ¬ Converged changingBack lateReads changingAddress := by
  have newest : Newest (sightedAt changingAddress lateReads) 30 := by
    have seen : sightedAt changingAddress lateReads = [10, 30, 20] := by decide
    rw [seen]
    simp [Newest]
  have last : (passedOn changingBack lateReads changingAddress).getLast? =
      some ⟨changingAddress, [2], 20⟩ := by decide
  refine ⟨newest, last, rfl, ?_⟩
  intro converged
  obtain ⟨update, eq, same⟩ := converged 30 newest
  rw [last] at eq
  cases eq
  exact absurd same (by decide)

end LedgerWatch
