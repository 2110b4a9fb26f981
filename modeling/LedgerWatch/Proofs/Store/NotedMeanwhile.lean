import LedgerWatch.Proofs.Store.Fresh

/-!
# Noting while a pruning runs

A pruning takes a snapshot of a kind and then comes to its entries one after another; others may
note markets at any time in between. Whatever it has seen as stale it drops only if it is stale
still, so a market that was given a fresh slot keeps the highest one (`notings_outlast_pruning`). On
its own such a pruning is `retainFresh`.

The invariant of a pruning under way is `UnderWay`. Its main part says of each market that what is
noted is the highest of some of the slots that it was given, all fresh ones among them (`Spares`).
-/

namespace LedgerWatch.Slots

/-- A pruning of one kind and the slots that it works on. -/
structure Pruning where
  slots : Slots
  /-- What it has not come to of its snapshot, once it has taken one. -/
  ahead : Option (List (UInt16 × UInt64)) := none
  fresh : List UInt16 := []

namespace Pruning

inductive Act
  | proceed
  | note (noting : Noting)
deriving DecidableEq

/-- It takes its snapshot, or it comes to the next entry of it. -/
def proceed (kind : MarketKind) (freshness : UInt64) (p : Pruning) : Pruning :=
  match p.ahead with
  | none => { p with ahead := some (p.slots.snapshot kind) }
  | some [] => p
  | some (entry :: rest) =>
    if isFresh freshness entry then
      { p with ahead := some rest, fresh := p.fresh ++ [entry.1] }
    else
      { p with ahead := some rest, slots := dropStale freshness kind p.slots entry.1 }

def step (kind : MarketKind) (freshness : UInt64) (p : Pruning) : Act → Pruning
  | .proceed => p.proceed kind freshness
  | .note n => { p with slots := p.slots.note n }

def run (kind : MarketKind) (freshness : UInt64) (s : Slots) (acts : List Act) : Pruning :=
  acts.foldl (step kind freshness) { slots := s }

/-- What the pruning returns when it is through. -/
def returned? (p : Pruning) : Option (List UInt16) :=
  match p.ahead with
  | some [] => some p.fresh
  | _ => none

def Act.noting? : Act → Option Noting
  | .proceed => none
  | .note n => some n

/-- What is noted by these acts. -/
def notings (acts : List Act) : List Noting := acts.filterMap Act.noting?

end Pruning

variable {s before : Slots} {kind other : MarketKind} {freshness slot n : UInt64} {i : UInt16}

/-! ## Sparing what is fresh -/

/-- What is noted is the highest of some of these slots, all fresh ones among them. -/
def Spares (freshness : UInt64) (slots : UInt64 → Prop) (noted : Option UInt64) : Prop :=
  ∃ left, Highest left noted ∧ (∀ slot, left slot → slots slot) ∧
    ∀ slot, slots slot → freshness < slot → left slot

namespace Spares

variable {slots slots' : UInt64 → Prop} {noted : Option UInt64}

theorem among (h : Spares freshness slots noted) (here : noted = some n) : slots n := by
  obtain ⟨left, highest, among, -⟩ := h
  exact among n (highest.among n here)

theorem filter (h : Spares freshness slots noted) :
    Spares freshness slots (noted.filter (freshness < ·)) := by
  obtain ⟨left, highest, among, fresh⟩ := h
  refine ⟨_, highest.filter freshness, ?_, ?_⟩
  · intro slot stays
    exact among slot stays.1
  · intro slot mem above
    refine ⟨fresh slot mem above, ?_⟩
    intro n here
    obtain ⟨m, there, le⟩ := highest.le slot (fresh slot mem above)
    obtain rfl := Option.some.inj (here.symm.trans there)
    exact UInt64.lt_of_lt_of_le above le

/-- If one of the slots is fresh, then the highest of all is noted. -/
theorem isGreatest (h : Spares freshness slots noted) (mem : slots slot)
    (above : freshness < slot) : ∃ n, noted = some n ∧ IsGreatest {slot | slots slot} n := by
  obtain ⟨left, highest, among, fresh⟩ := h
  obtain ⟨n, here, le⟩ := highest.le slot (fresh slot mem above)
  refine ⟨n, here, among n (highest.among n here), ?_⟩
  intro m mem
  by_cases stale : m ≤ freshness
  · exact UInt64.le_trans stale (UInt64.le_trans (UInt64.le_of_lt above) le)
  · obtain ⟨n', there, le'⟩ := highest.le m (fresh m mem (UInt64.not_le.1 stale))
    obtain rfl := Option.some.inj (here.symm.trans there)
    exact le'

theorem congr (h : Spares freshness slots noted) (same : ∀ slot, slots' slot ↔ slots slot) :
    Spares freshness slots' noted := by
  rwa [show slots' = slots from funext fun slot => propext (same slot)]

theorem note (h : Spares freshness slots (s.get? kind i)) (n : Noting) :
    Spares freshness (fun slot => n = ⟨kind, i, slot⟩ ∨ slots slot) ((s.note n).get? kind i) := by
  obtain ⟨left, highest, among, fresh⟩ := h
  refine ⟨_, highest_note highest n, ?_, ?_⟩
  · intro slot mem
    exact mem.imp_right (among slot)
  · intro slot mem above
    exact mem.imp_right (fresh slot · above)

end Spares

/-! ## A pruning under way -/

namespace Pruning

variable {p : Pruning} {during : List Noting} {moves : Nat} {done rest : List (UInt16 × UInt64)}
  {entry : UInt16 × UInt64}

/-- The pruning took its snapshot of `before` and made `moves` moves since; `during` was noted
meanwhile, and it is through with `done` and not with `rest`. -/
structure UnderWay (kind : MarketKind) (freshness : UInt64) (before : Slots)
    (during : List Noting) (moves : Nat) (done rest : List (UInt16 × UInt64)) (p : Pruning) :
    Prop where
  ahead : p.ahead = some rest
  snapshot : before.snapshot kind = done ++ rest
  togo : rest.length = (before.of kind).size - moves
  fresh : p.fresh = (done.filter (isFresh freshness)).map Prod.fst
  spares : ∀ i, Spares freshness (before.Given during kind i) (p.slots.get? kind i)
  dropped : ∀ entry ∈ done, isFresh freshness entry = false →
    (∀ slot, ⟨kind, entry.1, slot⟩ ∉ during) → p.slots.get? kind entry.1 = none
  other : ∀ other, kind ≠ other → p.slots.of other = (before.noteAll during).of other
  alone : during = [] → p.slots =
    ((done.filter (not ∘ isFresh freshness)).map Prod.fst).foldl (dropStale freshness kind) before

theorem underWay_snapshot (kind : MarketKind) (freshness : UInt64) (before : Slots) :
    UnderWay kind freshness before [] 0 [] (before.snapshot kind)
      (proceed kind freshness { slots := before }) where
  ahead := rfl
  snapshot := rfl
  togo := (perm_sortBy _).length_eq
  fresh := rfl
  spares i := by
    refine ⟨_, highest_noteAll before [] kind i, ?_, ?_⟩
    · intro slot mem
      exact mem
    · intro slot mem _
      exact mem
  dropped _ mem := by cases mem
  other _ _ := rfl
  alone _ := rfl

namespace UnderWay

theorem note (h : UnderWay kind freshness before during moves done rest p) (n : Noting) :
    UnderWay kind freshness before (during ++ [n]) moves done rest
      { p with slots := p.slots.note n } where
  ahead := h.ahead
  snapshot := h.snapshot
  togo := h.togo
  fresh := h.fresh
  spares i := by
    apply ((h.spares i).note n).congr
    intro slot
    rw [given_concat]
  dropped entry mem stale ungiven := by
    have before : ∀ slot, ⟨kind, entry.1, slot⟩ ∉ during := by
      intro slot given
      exact ungiven slot (List.mem_append_left _ given)
    rw [Slots.note, get?_set, if_neg]
    · exact h.dropped entry mem stale before
    · rintro ⟨rfl, here⟩
      apply ungiven n.slot
      rw [← here]
      exact List.mem_append_right _ (List.mem_singleton_self n)
  other other differ := by
    rw [noteAll_concat, of_note, of_note, h.other other differ]
  alone quiet := by simp at quiet

theorem snapshot_next (h : UnderWay kind freshness before during moves done (entry :: rest) p) :
    before.snapshot kind = (done ++ [entry]) ++ rest := by
  rw [h.snapshot, List.append_assoc]
  rfl

theorem togo_next (h : UnderWay kind freshness before during moves done (entry :: rest) p) :
    rest.length = (before.of kind).size - (moves + 1) := by
  have togo := h.togo
  rw [List.length_cons] at togo
  omega

/-- It comes to a fresh entry, which it only lists. -/
theorem keep (h : UnderWay kind freshness before during moves done (entry :: rest) p)
    (fresh : isFresh freshness entry = true) :
    UnderWay kind freshness before during (moves + 1) (done ++ [entry]) rest
      { p with ahead := some rest, fresh := p.fresh ++ [entry.1] } where
  ahead := rfl
  snapshot := h.snapshot_next
  togo := h.togo_next
  fresh := by
    rw [h.fresh, List.filter_append, List.map_append]
    simp [fresh]
  spares := h.spares
  dropped other mem stale ungiven := by
    cases List.mem_append.1 mem with
    | inl mem => exact h.dropped other mem stale ungiven
    | inr mem =>
      obtain rfl := List.mem_singleton.1 mem
      rw [fresh] at stale
      cases stale
  other := h.other
  alone quiet := by
    rw [List.filter_append, List.filter_singleton]
    simpa [fresh] using h.alone quiet

/-- It comes to an entry that was stale, and drops it if it is stale still. -/
theorem drop (distinct : before.Distinct)
    (h : UnderWay kind freshness before during moves done (entry :: rest) p)
    (stale : isFresh freshness entry = false) :
    UnderWay kind freshness before during (moves + 1) (done ++ [entry]) rest
      { p with ahead := some rest, slots := dropStale freshness kind p.slots entry.1 } where
  ahead := rfl
  snapshot := h.snapshot_next
  togo := h.togo_next
  fresh := by
    rw [h.fresh, List.filter_append]
    simp [stale]
  spares i := by
    rw [get?_dropStale]
    split
    · exact (h.spares i).filter
    · exact h.spares i
  dropped other mem old ungiven := by
    rw [get?_dropStale]
    cases List.mem_append.1 mem with
    | inl mem =>
      rw [h.dropped other mem old ungiven]
      split <;> rfl
    | inr mem =>
      obtain rfl := List.mem_singleton.1 mem
      rw [if_pos rfl, Option.filter_eq_none_iff]
      intro n here
      -- Nobody noted the market since, so what is there is what the snapshot showed.
      have listed : other ∈ (before.of kind).entries := by
        apply mem_sortBy.1
        rw [← Slots.snapshot, h.snapshot]
        simp
      have seen : before.get? kind other.1 = some other.2 := Table.get?_of_mem (distinct kind) listed
      have held : before.get? kind other.1 = some n :=
        ((h.spares other.1).among here).resolve_right (ungiven n)
      obtain rfl := Option.some.inj (seen.symm.trans held)
      exact Bool.eq_false_iff.1 old
  other other differ := by
    rw [of_dropStale _ _ differ]
    exact h.other other differ
  alone quiet := by
    rw [List.filter_append, List.map_append, List.foldl_append, ← h.alone quiet]
    simp [stale]

theorem proceed (distinct : before.Distinct)
    (h : UnderWay kind freshness before during moves done rest p) :
    ∃ done' rest', UnderWay kind freshness before during (moves + 1) done' rest'
      (p.proceed kind freshness) := by
  unfold Pruning.proceed
  rw [h.ahead]
  cases rest with
  | nil =>
    have togo : 0 = (before.of kind).size - (moves + 1) := by
      have togo := h.togo
      rw [List.length_nil] at togo
      omega
    exact ⟨done, [], h.ahead, h.snapshot, togo, h.fresh, h.spares, h.dropped, h.other, h.alone⟩
  | cons entry rest =>
    dsimp only
    cases fresh : isFresh freshness entry with
    | true => exact ⟨_, _, h.keep fresh⟩
    | false => exact ⟨_, _, h.drop distinct fresh⟩

theorem isSome_returned?_iff (h : UnderWay kind freshness before during moves done rest p) :
    p.returned?.isSome = true ↔ (before.of kind).size ≤ moves := by
  have togo := h.togo
  rw [returned?, h.ahead]
  cases rest with
  | nil =>
    rw [List.length_nil] at togo
    simp only [Option.isSome_some, true_iff]
    omega
  | cons entry rest =>
    rw [List.length_cons] at togo
    simp only [Option.isSome_none, Bool.false_eq_true, false_iff]
    omega

end UnderWay

theorem underWay_run (distinct : before.Distinct) (kind : MarketKind) (freshness : UInt64)
    (acts : List Act) :
    ∃ done rest, UnderWay kind freshness before (notings acts) (acts.count .proceed) done rest
      (acts.foldl (step kind freshness) (proceed kind freshness { slots := before })) := by
  induction acts using List.reverseRecOn with
  | nil => exact ⟨_, _, underWay_snapshot kind freshness before⟩
  | append_singleton acts act ih =>
    obtain ⟨done, rest, h⟩ := ih
    rw [List.foldl_append]
    cases act with
    | proceed =>
      have same : notings (acts ++ [.proceed]) = notings acts := by simp [notings, Act.noting?]
      rw [same, List.count_append, List.count_singleton_self]
      exact h.proceed distinct
    | note n =>
      have more : notings (acts ++ [.note n]) = notings acts ++ [n] := by
        simp [notings, Act.noting?]
      rw [more, List.count_append]
      exact ⟨done, rest, h.note n⟩

theorem run_early (early : List Noting) (later : List Act) :
    run kind freshness s (early.map .note ++ .proceed :: later) =
      later.foldl (step kind freshness) (proceed kind freshness { slots := s.noteAll early }) := by
  have noted : (early.map Act.note).foldl (step kind freshness) { slots := s } =
      { slots := s.noteAll early } := by
    induction early generalizing s with
    | nil => rfl
    | cons n rest ih => exact ih
  rw [run, List.foldl_append, noted]
  rfl

end Pruning

/-! ## A pruning that is through -/

/-- The pruning returned `fresh` and left `after`. Its snapshot is what `early` made of `s`, and
`during` was noted since. -/
structure Spared (s : Slots) (kind : MarketKind) (freshness : UInt64) (early during : List Noting)
    (fresh : List UInt16) (after : Slots) : Prop where
  kept : ∀ i slot, s.Given (early ++ during) kind i slot → freshness < slot →
    ∃ n, after.get? kind i = some n ∧
      IsGreatest {slot | s.Given (early ++ during) kind i slot} n
  dropped : ∀ i, (∀ n, (s.noteAll early).get? kind i = some n → n ≤ freshness) →
    (∀ slot, ⟨kind, i, slot⟩ ∉ during) → after.get? kind i = none
  listed : ∀ i, i ∈ fresh ↔ ∃ n, (s.noteAll early).get? kind i = some n ∧ freshness < n
  ascending : fresh.Pairwise (· < ·)
  other : ∀ other, kind ≠ other → after.of other = (s.noteAll (early ++ during)).of other
  alone : during = [] → (fresh, after) = (s.noteAll early).retainFresh kind freshness

theorem noteAll_append (s : Slots) (early during : List Noting) :
    s.noteAll (early ++ during) = (s.noteAll early).noteAll during :=
  List.foldl_append

/-- The highest of what a market has and is given does not change if some of it is noted first. -/
theorem isGreatest_given_append (s : Slots) (early during : List Noting) (kind : MarketKind)
    (i : UInt16) : IsGreatest {slot | (s.noteAll early).Given during kind i slot} n ↔
      IsGreatest {slot | s.Given (early ++ during) kind i slot} n := by
  rw [← (highest_noteAll _ during kind i).eq_some_iff, ← noteAll_append]
  exact (highest_noteAll s (early ++ during) kind i).eq_some_iff

/-- Whatever a market was given, the snapshot or a later noting shows as much. -/
theorem exists_given_of_append {early during : List Noting}
    (given : s.Given (early ++ during) kind i slot) :
    ∃ n, (s.noteAll early).Given during kind i n ∧ slot ≤ n := by
  obtain ⟨n, here, le⟩ := (highest_noteAll s (early ++ during) kind i).le slot given
  rw [noteAll_append] at here
  exact ⟨n, (highest_noteAll _ during kind i).among n here, le⟩

theorem Pruning.UnderWay.spared {p : Pruning} {moves : Nat} {done : List (UInt16 × UInt64)}
    {early during : List Noting} (distinct : s.Distinct)
    (h : UnderWay kind freshness (s.noteAll early) during moves done [] p) :
    Spared s kind freshness early during p.fresh p.slots := by
  have through : (s.noteAll early).snapshot kind = done := by
    rw [h.snapshot, List.append_nil]
  have returned : p.fresh = ((s.noteAll early).retainFresh kind freshness).1 := by
    rw [h.fresh, retainFresh_fst, through]
  constructor
  case kept =>
    intro i slot given above
    obtain ⟨m, given, le⟩ := exists_given_of_append given
    obtain ⟨n, here, greatest⟩ :=
      (h.spares i).isGreatest given (UInt64.lt_of_lt_of_le above le)
    exact ⟨n, here, (isGreatest_given_append s early _ kind i).1 greatest⟩
  case dropped =>
    intro i stale ungiven
    cases here : p.slots.get? kind i with
    | none => rfl
    | some n =>
      -- The market was in the snapshot, so the pruning has come to it.
      have held := ((h.spares i).among here).resolve_right (ungiven n)
      have listed : (i, n) ∈ done := by
        rw [← through, Slots.snapshot, mem_sortBy]
        exact Table.mem_of_get? held
      have old : isFresh freshness (i, n) = false := by
        apply decide_eq_false
        exact UInt64.not_lt.2 (stale n held)
      rw [← here]
      exact h.dropped (i, n) listed old ungiven
  case listed =>
    intro i
    rw [returned]
    exact mem_retainFresh_iff (distinct.noteAll early)
  case ascending =>
    rw [returned]
    exact ascending_retainFresh (distinct.noteAll early) kind freshness
  case other =>
    rw [noteAll_append]
    exact h.other
  case alone =>
    intro quiet
    rw [h.alone quiet, returned, ← through]
    simp only [retainFresh, List.partition_eq_filter_filter]

/-- A pruning returns once it has come to each entry of its snapshot, whatever is noted meanwhile,
and then no market has lost a fresh slot. -/
theorem notings_outlast_pruning (distinct : s.Distinct) (kind : MarketKind) (freshness : UInt64)
    (early : List Noting) (later : List Pruning.Act) :
    let p := Pruning.run kind freshness s (early.map .note ++ .proceed :: later)
    (p.returned?.isSome = true ↔ ((s.noteAll early).of kind).size ≤ later.count .proceed) ∧
      ∀ fresh, p.returned? = some fresh →
        Spared s kind freshness early (Pruning.notings later) fresh p.slots := by
  intro p
  obtain ⟨done, rest, h⟩ :=
    Pruning.underWay_run (distinct.noteAll early) kind freshness later
  rw [← Pruning.run_early] at h
  refine ⟨h.isSome_returned?_iff, ?_⟩
  intro fresh returned
  rw [Pruning.returned?, h.ahead] at returned
  cases rest with
  | nil =>
    obtain rfl := Option.some.inj returned
    exact h.spared distinct
  | cons entry rest => cases returned

/-- Market 4 was stale in the snapshot and is noted before the pruning comes to it, so it stays;
market 2, which nobody noted, goes. -/
theorem notings_outlast_pruning_refreshed :
    let s : Slots := { perp := ⟨[(4, 10), (2, 20), (9, 30)]⟩ }
    let acts : List Pruning.Act := [.proceed, .note ⟨.perp, 4, 25⟩, .proceed, .proceed]
    let p := Pruning.run .perp 20 s (.proceed :: acts)
    s.Distinct ∧ p.returned? = some [9] ∧ p.slots.get? .perp 4 = some 25 ∧
      p.slots.get? .perp 2 = none ∧ Spared s .perp 20 [] (Pruning.notings acts) [9] p.slots := by
  intro s acts p
  have distinct : s.Distinct := by
    intro kind
    cases kind <;> decide
  have returned : p.returned? = some [9] := by decide
  exact ⟨distinct, returned, by decide, by decide,
    (notings_outlast_pruning distinct .perp 20 [] acts).2 [9] returned⟩

end LedgerWatch.Slots
