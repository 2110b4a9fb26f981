import LedgerWatch.Proofs.Supervisor.Delivery

/-!
# Who tears a pair down

A pair is registered, or a call has to tear it down, or neither, and no two calls have to tear
down the same pair: a call takes a pair over by taking it out of the registry. `Exclusive` counts
how often a pair is registered or still to be finished by some call, and every event keeps that
(`Transition.exclusive`).
-/

namespace LedgerWatch

/-- The pairs that a call has still to finish. -/
def Call.duties : Call → List PairId
  | .clearing p rest | .stopping p _ rest | .joining p rest => p :: rest
  | _ => []

namespace Table

variable {κ ν : Type} [DecidableEq κ]

theorem count_values_insert [DecidableEq ν] {t : Table κ ν} {key : κ} (new : t.get? key = none)
    (value other : ν) : (t.insert key value).values.count other =
      t.values.count other + if value = other then 1 else 0 := by
  obtain ⟨entries⟩ := t
  simp only [insert, values, get?] at new ⊢
  induction entries with
  | nil => simp [put, List.count_singleton]
  | cons e rest ih =>
    obtain ⟨k, v⟩ := e
    simp only [find] at new
    split at new
    · cases new
    · rename_i different
      simp only [put, if_neg different, List.map_cons, List.count_cons, ih new]
      exact Nat.add_right_comm _ _ _

theorem count_values_erase_le [DecidableEq ν] (t : Table κ ν) (key : κ) (other : ν) :
    (t.erase key).values.count other ≤ t.values.count other :=
  (List.filter_sublist.map _).count_le other

theorem count_values_erase [DecidableEq ν] {t : Table κ ν} {key : κ} {value : ν}
    (known : t.get? key = some value) (other : ν) :
    (t.erase key).values.count other + (if value = other then 1 else 0) ≤ t.values.count other := by
  obtain ⟨entries⟩ := t
  simp only [erase, values, get?] at known ⊢
  induction entries with
  | nil => simp [find] at known
  | cons e rest ih =>
    obtain ⟨k, v⟩ := e
    simp only [find] at known
    split at known
    · rename_i same
      obtain rfl := Option.some.inj known
      have rest := count_values_erase_le ⟨rest⟩ key other
      simp only [erase, values, ne_eq] at rest
      simp only [List.filter_cons, same, ne_eq, not_true_eq_false, decide_false,
        Bool.false_eq_true, if_false, List.map_cons, List.count_cons, beq_iff_eq]
      omega
    · rename_i different
      have rest := ih known
      simp only [List.filter_cons, ne_eq, different, not_false_eq_true, decide_true, if_true,
        List.map_cons, List.count_cons]
      simp only [ne_eq] at rest
      omega

/-- A key that has one entry has none after its erasure. -/
theorem size_erase [DecidableEq ν] {t : Table κ ν} {key : κ} {value : ν}
    (known : t.get? key = some value)
    (unique : ∀ other, (key, other) ∈ t.entries → other = value)
    (once : t.values.count value ≤ 1) : (t.erase key).size + 1 = t.size := by
  obtain ⟨entries⟩ := t
  simp only [erase, values, get?, size] at known unique once ⊢
  induction entries with
  | nil => simp [find] at known
  | cons e rest ih =>
    obtain ⟨k, v⟩ := e
    simp only [find] at known
    simp only [List.map_cons, List.count_cons] at once
    split at known
    · rename_i same
      obtain rfl := Option.some.inj known
      have apart : ∀ e ∈ rest, e.1 ≠ key := by
        rintro ⟨k', v'⟩ mem rfl
        obtain rfl := unique v' (List.mem_cons_of_mem _ mem)
        have present : 0 < (rest.map Prod.snd).count v' :=
          List.count_pos_iff.2 (List.mem_map.2 ⟨_, mem, rfl⟩)
        simp only [beq_self_eq_true, if_true] at once
        omega
      have kept : rest.filter (fun e => decide (e.1 ≠ key)) = rest :=
        List.filter_eq_self.mpr fun e mem => decide_eq_true (apart e mem)
      simp only [List.filter_cons, same, ne_eq, not_true_eq_false, decide_false,
        Bool.false_eq_true, if_false, List.length_cons]
      rw [kept]
    · rename_i different
      have more := ih known (fun other mem => unique other (List.mem_cons_of_mem _ mem)) (by omega)
      simp only [List.filter_cons, ne_eq, different, not_false_eq_true, decide_true, if_true,
        List.length_cons]
      simp only [ne_eq] at more
      omega

end Table

namespace Supervisor

variable {s t : Supervisor} {p q : PairId} {pair : Pair} {id : CallId} {ps held : List PairId}

/-- The pairs that the call `id` has still to finish. -/
def duties (s : Supervisor) (id : CallId) : List PairId := (s.calls[id]?.map Call.duties).getD []

theorem duties_eq {call : Call} (at_id : s.calls[id]? = some call) : s.duties id = call.duties := by
  simp [duties, at_id]

/-- How often calls have still to finish the pair. -/
def burden (s : Supervisor) (p : PairId) : Nat := (s.calls.flatMap Call.duties).count p

theorem burden_append {call : Call} (h : t.calls = s.calls ++ [call]) (p : PairId) :
    t.burden p = s.burden p + call.duties.count p := by
  simp [burden, h, List.count_append]

theorem burden_set {old call : Call} (at_id : s.calls[id]? = some old)
    (h : t.calls = s.calls.set id call) (p : PairId) :
    t.burden p + old.duties.count p = s.burden p + call.duties.count p := by
  unfold burden
  rw [h]
  clear h
  generalize s.calls = calls at at_id
  induction calls generalizing id with
  | nil => simp at at_id
  | cons first rest ih =>
    cases id with
    | zero =>
      obtain rfl : first = old := by simpa using at_id
      simp only [List.set_cons_zero, List.flatMap_cons, List.count_append]
      omega
    | succ id =>
      have more := ih (by simpa using at_id)
      simp only [List.set_cons_succ, List.flatMap_cons, List.count_append]
      omega

/-- A pair is once registered, in a call's hands or a call's duty, and only if it is there. -/
def Exclusive (held : List PairId) (s : Supervisor) : Prop :=
  ∀ p, held.count p + s.registry.values.count p + s.burden p ≤ if p < s.pairs.length then 1 else 0

theorem exclusive_initial (h : s.Initial) : Exclusive [] s := by
  intro p
  simp [h.registry, h.calls, burden, Table.values]

theorem burden_takenOver {call : Call} (at_id : s.calls[id]? = some call) (p : PairId) :
    (s.takenOver id).burden p + call.duties.count p = s.burden p := by
  have moved := burden_set (t := s.takenOver id) at_id rfl p
  simpa [Call.duties] using moved

theorem burden_resumed {call : Call} (hid : id < s.calls.length)
    (h : t.calls = s.calls.set id call) (p : PairId) :
    t.burden p = (s.takenOver id).burden p + call.duties.count p := by
  have moved := burden_set (s := s.takenOver id) (t := t) (at_takenOver hid)
    (show t.calls = (s.takenOver id).calls.set id call by simp [takenOver, h]) p
  simpa [Call.duties] using moved

/-- A call in progress takes its duties into its hands. -/
theorem Exclusive.take {call : Call} (h : Exclusive [] s) (at_id : s.calls[id]? = some call) :
    Exclusive call.duties (s.takenOver id) := by
  intro p
  have mine := h p
  rw [← burden_takenOver at_id p, List.count_nil] at mine
  change _ + s.registry.values.count p + _ ≤ if p < s.pairs.length then 1 else 0
  omega

/-- A call that has to wait leaves what it holds as its duties. -/
theorem Exclusive.leave (call : Call) (h : Exclusive call.duties (s.takenOver id))
    (hid : id < s.calls.length) (calls : t.calls = s.calls.set id call)
    (registry : t.registry = s.registry) (length : t.pairs.length = s.pairs.length) :
    Exclusive [] t := by
  intro p
  have mine := h p
  rw [burden_resumed hid calls p, registry, length, List.count_nil]
  change _ + s.registry.values.count p + _ ≤ if p < s.pairs.length then 1 else 0 at mine
  omega

theorem Exclusive.congr (h : Exclusive held s) (calls : t.calls = s.calls)
    (registry : t.registry = s.registry) (length : t.pairs.length = s.pairs.length) :
    Exclusive held t := by
  intro p
  have burden : t.burden p = s.burden p := by rw [Supervisor.burden, Supervisor.burden, calls]
  rw [burden, registry, length]
  exact h p

/-- What is in hands is let go. -/
theorem Exclusive.drop (h : Exclusive (p :: held) s) : Exclusive held s := by
  intro q
  have mine := h q
  rw [List.count_cons] at mine
  omega

/-- A call that adds no duty and takes none away. -/
theorem Exclusive.append {call : Call} (h : Exclusive held s)
    (calls : t.calls = s.calls ++ [call]) (none : call.duties = [])
    (registry : t.registry = s.registry) (length : t.pairs.length = s.pairs.length) : Exclusive held t := by
  intro p
  rw [burden_append calls, none, registry, length]
  exact h p

theorem Exclusive.set {old call : Call} (h : Exclusive held s) (at_id : s.calls[id]? = some old)
    (calls : t.calls = s.calls.set id call) (same : call.duties = old.duties)
    (registry : t.registry = s.registry) (length : t.pairs.length = s.pairs.length) :
    Exclusive held t := by
  intro p
  have burden := burden_set at_id calls p
  rw [same] at burden
  rw [registry, length, Nat.add_right_cancel burden]
  exact h p

theorem TornDown.exclusive (torn : TornDown id ps s t) (hid : id < s.calls.length)
    (h : Exclusive ps (s.takenOver id)) : Exclusive [] t := by
  induction torn with
  | done => exact h.congr rfl rfl rfl
  | missing _ _ ih => exact ih hid (h.drop.congr rfl rfl rfl)
  | passed _ _ _ _ _ ih => exact ih hid (h.drop.congr rfl rfl (by simp [takenOver]))
  | @queued p rest _ _ _ _ _ =>
    exact Exclusive.leave (.clearing p rest) h hid rfl rfl (by simp)
  | @stops p rest _ _ c _ _ _ _ =>
    exact Exclusive.leave (.stopping p c rest) h hid rfl rfl (by simp)
  | @joins p rest _ _ _ _ _ _ _ =>
    exact Exclusive.leave (.joining p rest) h hid rfl rfl (by simp)

theorem GoesOn.exclusive {rest : List PairId} (onward : GoesOn id p rest s t)
    (hid : id < s.calls.length) (h : Exclusive (p :: rest) (s.takenOver id)) : Exclusive [] t := by
  cases onward with
  | onward _ torn => exact torn.exclusive hid h.drop
  | joins => exact Exclusive.leave (.joining p rest) h hid rfl rfl rfl

/-- A registered pair is taken over. -/
theorem Exclusive.unregister {key : WatchKey} (h : Exclusive [] s)
    (known : s.registry.get? key = some p) (calls : t.calls = s.calls)
    (registry : t.registry = s.registry.erase key) (length : t.pairs.length = s.pairs.length) :
    Exclusive [p] t := by
  intro q
  have mine := h q
  have fewer := Table.count_values_erase known q
  have burden : t.burden q = s.burden q := by rw [Supervisor.burden, Supervisor.burden, calls]
  rw [burden, registry, length, List.count_singleton]
  rw [List.count_nil] at mine
  simp only [beq_iff_eq]
  omega

theorem Exclusive.unregisterAll {order : List PairId} (h : Exclusive [] s)
    (perm : order.Perm s.registry.values) (calls : t.calls = s.calls) (registry : t.registry = {})
    (length : t.pairs.length = s.pairs.length) : Exclusive order t := by
  intro q
  have mine := h q
  have burden : t.burden q = s.burden q := by rw [Supervisor.burden, Supervisor.burden, calls]
  rw [burden, registry, length, perm.count_eq]
  simpa [Table.values] using mine

theorem Exclusive.register {key : WatchKey} {call : Call} {observer : Option String}
    (h : Exclusive [] s) (new : s.registry.get? key = none)
    (calls : t.calls = s.calls ++ [call]) (none : call.duties = [])
    (registry : t.registry = s.registry.insert key s.pairs.length)
    (pairs : t.pairs = s.pairs ++ [s.newPair key observer]) : Exclusive [] t := by
  intro q
  have mine := h q
  rw [burden_append calls, none, registry, Table.count_values_insert new, pairs]
  simp only [List.count_nil, List.length_append, List.length_singleton] at mine ⊢
  rcases Nat.lt_trichotomy q s.pairs.length with before | rfl | after
  · rw [if_pos before] at mine
    rw [if_neg (Nat.ne_of_gt before), if_pos (Nat.lt_succ_of_lt before)]
    omega
  · rw [if_neg (Nat.lt_irrefl _)] at mine
    rw [if_pos rfl, if_pos (Nat.lt_succ_self _)]
    omega
  · rw [if_neg (Nat.lt_asymm after)] at mine
    rw [if_neg (Nat.ne_of_lt after), if_neg (Nat.not_lt.2 after)]
    omega

theorem Transition.exclusive {e : Event} (step : Transition s e t) (sound : Sound [] s)
    (h : Exclusive [] s) : Exclusive [] t := by
  cases step with
  | registered new => exact h.register new rfl rfl rfl rfl
  | found | unknown => exact h.append rfl rfl rfl rfl
  | followed => exact h.append rfl rfl rfl (by simp)
  | @unsubscribed key p _ fx known torn =>
    refine torn.exclusive (by simp) ?_
    have held := h.unregister (t := { s with registry := s.registry.erase key }) known rfl rfl rfl
    exact held.append (calls_begun rfl) rfl rfl rfl
  | unsubscribedAll perm torn =>
    refine torn.exclusive (by simp) ?_
    have held := h.unregisterAll perm (t := { s with registry := {} }) rfl rfl rfl
    exact held.append (calls_begun rfl) rfl rfl rfl
  | entered call | leftAlone call | answered call => exact h.set call rfl rfl rfl (by simp)
  | cleared call => exact h.set call rfl rfl rfl (by simp)
  | opened _ _ call => exact h.set call rfl rfl rfl (by simp)
  | @failed c _ id _ pair channel error fx _ _ call at_p =>
    intro q
    have mine := (h.set (t := { s with calls := s.calls.set id (.returned (.error error)) }) call rfl
      rfl rfl rfl) q
    dsimp only at mine ⊢
    split
    · have fewer := Table.count_values_erase_le s.registry pair.key q
      rw [List.length_set]
      exact Nat.le_trans (Nat.add_le_add_right (Nat.add_le_add_left fewer _) _) mine
    · rw [List.length_set]
      exact mine
  | @foundClear id p rest _ _ _ call _ _ _ onward =>
    refine onward.exclusive (List.getElem?_eq_some_iff.1 call).1 ?_
    exact (h.take call).congr rfl rfl (by simp [takenOver])
  | joined call onward =>
    refine onward.exclusive (List.getElem?_eq_some_iff.1 call).1 ?_
    exact (h.take call).congr rfl rfl rfl
  | stoppedForCall _ call onward =>
    refine onward.exclusive (List.getElem?_eq_some_iff.1 call).1 ?_
    exact (h.take call).congr rfl rfl rfl
  | stray at_c missing => exact absurd missing (sound.present at_c)
  | _ => exact h.congr rfl rfl (by simp)

theorem count_le_burden (s : Supervisor) (id : CallId) (p : PairId) :
    (s.duties id).count p ≤ s.burden p := by
  cases at_id : s.calls[id]? with
  | none => simp [duties, at_id]
  | some call =>
    rw [duties_eq at_id, ← burden_takenOver at_id p]
    exact Nat.le_add_left _ _

/-- No two calls have to finish the same pair. -/
theorem Exclusive.sole {other : CallId} (h : Exclusive held s) (mine : p ∈ s.duties id)
    (yours : p ∈ s.duties other) : id = other := by
  refine Classical.byContradiction fun different => ?_
  obtain ⟨call, at_id⟩ : ∃ call, s.calls[id]? = some call := by
    cases at_id : s.calls[id]? with
    | none => simp [duties, at_id] at mine
    | some call => exact ⟨call, rfl⟩
  have kept : (s.takenOver id).duties other = s.duties other := by
    simp [duties, takenOver, List.getElem?_set_ne different]
  have first := List.count_pos_iff.2 mine
  have second := List.count_pos_iff.2 yours
  have both := count_le_burden (s.takenOver id) other p
  have all := burden_takenOver at_id p
  have once := h p
  rw [duties_eq at_id] at first
  rw [kept] at both
  split at once <;> omega

/-- What is in hands is no other call's duty. -/
theorem Exclusive.apart (h : Exclusive held s) (mem : p ∈ held) (id : CallId) :
    p ∉ s.duties id := by
  intro duty
  have first := List.count_pos_iff.2 mem
  have second := List.count_pos_iff.2 duty
  have third := count_le_burden s id p
  have once := h p
  split at once <;> omega

end Supervisor

end LedgerWatch
