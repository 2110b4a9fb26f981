import LedgerWatch.Watch.Tracker

/-!
# News, by what was told before

Whether a read entry is news can be said of the updates told so far (`IsNews`), without a tracker:
what a tracker remembers of an address is the last update told of it, and so it finds just this news
(`Tracker.Recalls.news`). After the news of a read that is not older than what was told before, the
last update told of each address that was read has the bytes that were read
(`lastTold_newsAfter`).
-/

namespace LedgerWatch

/-- What a read found, as updates; a read that failed found nothing. -/
def found : FilterRead → List Update
  | .ok read => read.value.map fun (address, data) => ⟨address, data, read.slot⟩
  | .error _ => []

def lastTold (told : List Update) (address : Address) : Option Update :=
  (told.filter (·.address = address)).getLast?

/-- Nothing newer was told of the address, and not the same bytes last. -/
def IsNews (told : List Update) (u : Update) : Prop :=
  ∀ last ∈ lastTold told u.address, last.slot ≤ u.slot ∧ last.data ≠ u.data

instance (told : List Update) (u : Update) : Decidable (IsNews told u) :=
  inferInstanceAs (Decidable (∀ last ∈ lastTold told u.address, _))

/-- Those of the updates that are news, each after those before it. -/
def newsAfter : List Update → List Update → List Update
  | _, [] => []
  | told, u :: rest =>
    if IsNews told u then u :: newsAfter (told ++ [u]) rest else newsAfter told rest

variable {told updates before after : List Update} {u : Update} {address : Address} {slot : UInt64}

theorem lastTold_concat (told : List Update) (u : Update) (address : Address) :
    lastTold (told ++ [u]) address =
      if u.address = address then some u else lastTold told address := by
  rw [lastTold, List.filter_append]
  by_cases own : u.address = address
  · simp [own]
  · simp [own, lastTold]

theorem lastTold_append_of_ne (others : ∀ u ∈ updates, u.address ≠ address) :
    lastTold (told ++ updates) address = lastTold told address := by
  have none : updates.filter (·.address = address) = [] := by simpa using others
  rw [lastTold, List.filter_append, none, List.append_nil, lastTold]

theorem mem_of_lastTold (last : lastTold told address = some u) : u ∈ told :=
  (List.mem_filter.1 (List.mem_of_getLast? last)).1

theorem newsAfter_append (told before after : List Update) : newsAfter told (before ++ after) =
    newsAfter told before ++ newsAfter (told ++ newsAfter told before) after := by
  induction before generalizing told with
  | nil => simp [newsAfter]
  | cons u rest ih =>
    by_cases news : IsNews told u
    · simp [newsAfter, news, ih]
    · simp [newsAfter, news, ih]

theorem newsAfter_sublist (told updates : List Update) :
    (newsAfter told updates).Sublist updates := by
  induction updates generalizing told with
  | nil => exact List.Sublist.slnil
  | cons u rest ih =>
    rw [newsAfter]
    split
    · exact (ih _).cons_cons u
    · exact (ih _).cons u

/-! ## What a tracker finds -/

namespace Tracker

variable {t : Tracker}

/-- Of each address the tracker remembers the last update told. -/
def Recalls (t : Tracker) (told : List Update) : Prop :=
  ∀ address, t.last.get? address = (lastTold told address).map fun u => (u.slot, u.data)

theorem recalls_nil : Recalls {} [] := fun _ => rfl

theorem Recalls.isNews_iff (h : t.Recalls told) (u : Update) :
    t.isNews u = true ↔ IsNews told u := by
  rw [isNews, h u.address, IsNews]
  cases lastTold told u.address with
  | none => simp
  | some last => simp

theorem Recalls.note (h : t.Recalls told) (u : Update) : (t.note u).Recalls (told ++ [u]) := by
  intro address
  rw [Tracker.note, Table.get?_insert, lastTold_concat, h address]
  by_cases own : u.address = address <;> simp [own]

/-- A tracker that remembers what was told finds the news. -/
theorem Recalls.news (h : t.Recalls told) (updates : List Update) :
    (t.news updates).1 = newsAfter told updates ∧
      (t.news updates).2.Recalls (told ++ newsAfter told updates) := by
  induction updates generalizing t told with
  | nil => exact ⟨rfl, by rwa [newsAfter, List.append_nil]⟩
  | cons u rest ih =>
    by_cases news : IsNews told u
    · obtain ⟨more, recalls⟩ := ih (h.note u)
      rw [Tracker.news, if_pos ((h.isNews_iff u).2 news), newsAfter, if_pos news]
      constructor
      · exact congrArg (u :: ·) more
      · rw [List.append_cons]
        exact recalls
    · rw [Tracker.news, if_neg (mt (h.isNews_iff u).1 news), newsAfter, if_neg news]
      exact ih h

theorem Recalls.absorb (h : t.Recalls told) (read : Stamped (List (Address × Bytes))) :
    (t.absorb read).1 = newsAfter told (found (.ok read)) ∧
      (t.absorb read).2.Recalls (told ++ newsAfter told (found (.ok read))) := by
  rw [absorb_eq]
  exact h.news (found (.ok read))

end Tracker

/-! ## What was told last -/

/-- What is no news has been told. -/
theorem lastTold_newsAfter_singleton (earlier : ∀ old ∈ told, old.slot ≤ u.slot) :
    ∃ last, lastTold (told ++ newsAfter told [u]) u.address = some last ∧ last.data = u.data := by
  by_cases news : IsNews told u
  · refine ⟨u, ?_, rfl⟩
    rw [newsAfter, if_pos news, newsAfter, lastTold_concat, if_pos rfl]
  · rw [newsAfter, if_neg news, newsAfter, List.append_nil]
    obtain ⟨last, told_last, same⟩ : ∃ last, lastTold told u.address = some last ∧
        (last.slot ≤ u.slot → last.data = u.data) := by
      simpa [IsNews] using news
    exact ⟨last, told_last, same (earlier last (mem_of_lastTold told_last))⟩

/-- After the news of a read that is not older than what was told, the last entry of an address has
the bytes that were told last. -/
theorem lastTold_newsAfter (earlier : ∀ old ∈ told, old.slot ≤ slot)
    (same : ∀ other ∈ before ++ u :: after, other.slot = slot)
    (final : ∀ other ∈ after, other.address ≠ u.address) :
    ∃ last, lastTold (told ++ newsAfter told (before ++ u :: after)) u.address = some last ∧
      last.data = u.data := by
  have at_u : u.slot = slot := same u (by simp)
  have earlier' : ∀ old ∈ told ++ newsAfter told before, old.slot ≤ u.slot := by
    intro old mem
    cases List.mem_append.1 mem with
    | inl mem => exact at_u ▸ earlier old mem
    | inr mem =>
      have at_old := same old (List.mem_append_left _ ((newsAfter_sublist _ _).subset mem))
      rw [at_old, at_u]
      exact UInt64.le_refl slot
  have rest (others : List Update) : ∀ other ∈ newsAfter others after, other.address ≠ u.address :=
    fun other mem => final other ((newsAfter_sublist _ _).subset mem)
  have split : told ++ newsAfter told (before ++ ([u] ++ after)) =
      ((told ++ newsAfter told before) ++ newsAfter (told ++ newsAfter told before) [u]) ++
        newsAfter ((told ++ newsAfter told before) ++
          newsAfter (told ++ newsAfter told before) [u]) after := by
    rw [newsAfter_append, newsAfter_append]
    simp only [List.append_assoc]
  change ∃ last, lastTold (told ++ newsAfter told (before ++ ([u] ++ after))) u.address = _ ∧ _
  rw [split, lastTold_append_of_ne (rest _)]
  exact lastTold_newsAfter_singleton earlier'

/-- After these reads, this was told of them: of each account that the latest read found, its bytes
last, if the reads were served at slots that do not go back. -/
structure Shows (reads : List (Stamped (List (Address × Bytes)))) (told : List Update) : Prop where
  served : ∀ u ∈ told, ∃ read ∈ reads, u.slot = read.slot
  latest : reads.Pairwise (fun a b => a.slot ≤ b.slot) → ∀ read ∈ reads.getLast?,
    ∀ before address data after, read.value = before ++ (address, data) :: after →
      (∀ other ∈ after, other.1 ≠ address) →
        ∃ last, lastTold told address = some last ∧ last.data = data

theorem shows_nil : Shows [] [] where
  served := by simp
  latest := by simp

theorem Shows.read {reads : List (Stamped (List (Address × Bytes)))} (h : Shows reads told)
    (read : Stamped (List (Address × Bytes))) :
    Shows (reads ++ [read]) (told ++ newsAfter told (found (.ok read))) where
  served u mem := by
    cases List.mem_append.1 mem with
    | inl old =>
      obtain ⟨earlier, mem, slot⟩ := h.served u old
      exact ⟨earlier, List.mem_append_left _ mem, slot⟩
    | inr new =>
      obtain ⟨entry, -, rfl⟩ := List.mem_map.1 ((newsAfter_sublist _ _).subset new)
      exact ⟨read, by simp, rfl⟩
  latest ascending latest last before address data after value final := by
    rw [List.getLast?_concat] at last
    obtain rfl := Option.some.inj last
    have earlier : ∀ old ∈ told, old.slot ≤ read.slot := by
      intro old mem
      obtain ⟨served, mem, slot⟩ := h.served old mem
      rw [slot]
      exact (List.pairwise_append.1 ascending).2.2 served mem read (by simp)
    let update (entry : Address × Bytes) : Update := ⟨entry.1, entry.2, read.slot⟩
    have split : found (.ok read) =
        before.map update ++ update (address, data) :: after.map update := by
      rw [found, value, List.map_append]
      rfl
    rw [split]
    apply lastTold_newsAfter (u := update (address, data)) earlier
    · intro other mem
      rw [← List.map_cons, ← List.map_append] at mem
      obtain ⟨entry, -, rfl⟩ := List.mem_map.1 mem
      rfl
    · intro other mem
      obtain ⟨entry, entered, rfl⟩ := List.mem_map.1 mem
      exact final entry entered

end LedgerWatch
