import LedgerWatch.Proofs.History
import LedgerWatch.Proofs.Watch.Transcript
import LedgerWatch.Watch.Push

/-!
# The dialogue with an endpoint

A channel that subscribes connects, asks for one subscription after another, and in the end gives
back what it was granted, one after another. Where it stands in this is its `Position`, and
`Dialogue` says what has passed between it and its endpoint when it stands there. That is fair
dealing (`Dialogue.fair`): nothing granted is kept, and a start that is refused returns after
everything has been given back.
-/

namespace LedgerWatch

/-- What passes between a channel, its endpoint and those who start it. -/
inductive Dealing (τ : Type)
  | connect
  | connected (result : Except EndpointError Unit)
  | subscribe (target : τ)
  | subscribed (result : Except EndpointError SubscriptionId)
  | unsubscribe (id : SubscriptionId)
  | released
  | started (result : Except SubscriptionError Unit)

namespace Dealing

variable {τ : Type}

def answers : Dealing τ → Dealing τ → Bool
  | connect, connected _ => true
  | subscribe _, subscribed _ => true
  | unsubscribe _, released => true
  | _, _ => false

/-- What is taken down of a channel's dealings with its endpoint. -/
def scribe {ι ο : Type} (reply? : ι → Option (Dealing τ)) (dealing? : ο → Option (Dealing τ)) :
    Scribe ι ο (Dealing τ) := ⟨reply?, dealing?, answers⟩

/-- The endpoint has to answer this. -/
def isCall : Dealing τ → Bool
  | connect | subscribe _ | unsubscribe _ => true
  | _ => false

def request? : Dealing τ → Option τ
  | subscribe target => some target
  | _ => none

def grant? : Dealing τ → Option SubscriptionId
  | subscribed (.ok id) => some id
  | _ => none

def refusal? : Dealing τ → Option EndpointError
  | connected (.error error) | subscribed (.error error) => some error
  | _ => none

def return? : Dealing τ → Option SubscriptionId
  | unsubscribe id => some id
  | _ => none

def result? : Dealing τ → Option (Except SubscriptionError Unit)
  | started result => some result
  | _ => none

def isReleased : Dealing τ → Bool
  | released => true
  | _ => false

/-- The subscriptions asked for. -/
abbrev requests (dealings : List (Dealing τ)) : List τ := dealings.filterMap request?

/-- The subscriptions granted. -/
abbrev grants (dealings : List (Dealing τ)) : List SubscriptionId := dealings.filterMap grant?

/-- What the endpoint refused, the connection included. -/
abbrev refusals (dealings : List (Dealing τ)) : List EndpointError := dealings.filterMap refusal?

/-- The subscriptions that the endpoint was told to end. -/
abbrev returns (dealings : List (Dealing τ)) : List SubscriptionId := dealings.filterMap return?

/-- What the start has returned. -/
abbrev results (dealings : List (Dealing τ)) : List (Except SubscriptionError Unit) :=
  dealings.filterMap result?

/-- How often the endpoint has ended a subscription. -/
abbrev releases (dealings : List (Dealing τ)) : Nat := (dealings.filter isReleased).length

/-- Each subscription granted has been given back once, and the endpoint has ended it. -/
structure GivenBack (dealings : List (Dealing τ)) : Prop where
  told : returns dealings = grants dealings
  done : releases dealings = (grants dealings).length

/-- No call of the endpoint is open. -/
def Idle (dealings : List (Dealing τ)) : Prop :=
  ∀ dealing ∈ dealings.getLast?, dealing.isCall = false

end Dealing

open Dealing

/-- A channel that is to subscribe to these targets deals fairly with its endpoint. -/
structure FairDealing {τ : Type} (targets : List τ) (begun ended : Prop)
    (dealings : List (Dealing τ)) : Prop where
  /-- Once it has been started it connects, before anything else. -/
  connects : begun → dealings.head? = some connect
  /-- It asks for its targets in their order. -/
  asks : requests dealings <+: targets
  /-- It gives back nothing that it was not granted, and nothing twice. -/
  owed : returns dealings <+: grants dealings
  /-- Its task has ended only if everything has been given back. -/
  ended : ended → GivenBack dealings ∧ (results dealings).length = 1
  /-- The start returns Ok exactly when every request has been granted. -/
  started_ok_iff : started (.ok ()) ∈ dealings ↔
    connected (.ok ()) ∈ dealings ∧ (grants dealings).length = targets.length
  /-- A start that fails tells of the first refusal, has given everything back by then, and nothing
  comes after it. -/
  failed : ∀ before error after, dealings = before ++ started (.error error) :: after →
    GivenBack before ∧ Idle before ∧ after = [] ∧
      ∃ refusal, (refusals before).head? = some refusal ∧ error = .endpoint refusal
  /-- A start that has not returned waits for the endpoint. -/
  returns : connect ∈ dealings → Idle dealings → results dealings ≠ []

/-! ## The dialogue with an endpoint -/

section Dialogue

variable {τ : Type}

/-- Where a channel stands with its endpoint. -/
inductive Position (τ : Type)
  | unstarted (ids : List SubscriptionId)
  | connecting (ids : List SubscriptionId)
  | subscribing (ids : List SubscriptionId) (targets : List τ)
  | live (ids : List SubscriptionId)
  | releasing (ids : List SubscriptionId) (refusal : Option EndpointError)
  | ended

/-- The connection, and these requests with what was granted to them. -/
def opened (granted : List (τ × SubscriptionId)) : List (Dealing τ) :=
  [connect, connected (.ok ())] ++
    granted.flatMap fun (target, id) => [subscribe target, subscribed (.ok id)]

def givenBack (ids : List SubscriptionId) : List (Dealing τ) :=
  ids.flatMap fun id => [unsubscribe id, released]

def report : Option EndpointError → List (Dealing τ)
  | none => []
  | some error => [started (.error (.endpoint error))]

/-- All requests so far were granted, and these targets are left. -/
inductive Opening (targets : List τ) (ids : List SubscriptionId) (left : List τ) :
    List (Dealing τ) → Prop
  | intro (granted : List (τ × SubscriptionId)) (asked : targets = granted.map Prod.fst ++ left)
      (got : granted.map Prod.snd = ids) : Opening targets ids left (opened granted)

/-- The handshake is over, with these grants. -/
inductive Shaken (targets : List τ) (granted : List (τ × SubscriptionId)) :
    Option EndpointError → List (Dealing τ) → Prop
  | unreachable (error : EndpointError) (nothing : granted = []) :
      Shaken targets granted (some error) [connect, connected (.error error)]
  | refused (target : τ) (left : List τ) (error : EndpointError)
      (asked : targets = granted.map Prod.fst ++ target :: left) :
      Shaken targets granted (some error)
        (opened granted ++ [subscribe target, subscribed (.error error)])
  | served (asked : targets = granted.map Prod.fst) :
      Shaken targets granted none (opened granted ++ [started (.ok ())])

/-- The handshake is over, and of what was granted these are to be given back yet. -/
inductive Owes (targets : List τ) (ids : List SubscriptionId) (refusal : Option EndpointError) :
    List (Dealing τ) → Prop
  | intro {granted : List (τ × SubscriptionId)} {front : List (Dealing τ)}
      (given : List SubscriptionId) (shaken : Shaken targets granted refusal front)
      (got : granted.map Prod.snd = given ++ ids) :
      Owes targets ids refusal (front ++ givenBack given)

/-- What has passed when a channel stands at a position. -/
inductive Dialogue (targets : List τ) : Position τ → List (Dealing τ) → Prop
  | unstarted {ids : List SubscriptionId} (nothing : ids = []) :
      Dialogue targets (.unstarted ids) []
  | connecting {ids : List SubscriptionId} (nothing : ids = []) :
      Dialogue targets (.connecting ids) [connect]
  | subscribing {ids : List SubscriptionId} {target : τ} {left : List τ} {said : List (Dealing τ)}
      (opening : Opening targets ids (target :: left) said) :
      Dialogue targets (.subscribing ids (target :: left)) (said ++ [subscribe target])
  | live {ids : List SubscriptionId} {said : List (Dealing τ)} (owes : Owes targets ids none said) :
      Dialogue targets (.live ids) said
  | releasing {id : SubscriptionId} {ids : List SubscriptionId} {refusal : Option EndpointError}
      {said : List (Dealing τ)} (owes : Owes targets (id :: ids) refusal said) :
      Dialogue targets (.releasing (id :: ids) refusal) (said ++ [unsubscribe id])
  | ended {refusal : Option EndpointError} {said : List (Dealing τ)}
      (owes : Owes targets [] refusal said) : Dialogue targets .ended (said ++ report refusal)

/-- Asks for the next target, or goes live. -/
def asking (ids : List SubscriptionId) : List τ → Position τ × List (Dealing τ)
  | [] => (.live ids, [started (.ok ())])
  | target :: left => (.subscribing ids (target :: left), [subscribe target])

/-- Gives back the next subscription, or ends. -/
def returning (refusal : Option EndpointError) : List SubscriptionId → Position τ × List (Dealing τ)
  | [] => (.ended, report refusal)
  | id :: ids => (.releasing (id :: ids) refusal, [unsubscribe id])

variable {targets left : List τ} {target : τ} {ids : List SubscriptionId} {id : SubscriptionId}
  {refusal : Option EndpointError} {error : EndpointError} {said : List (Dealing τ)}

theorem Opening.served (h : Opening targets ids [] said) :
    Owes targets ids none (said ++ [started (.ok ())]) := by
  obtain ⟨granted, asked, got⟩ := h
  have all : Owes targets ids none ((opened granted ++ [started (.ok ())]) ++ givenBack []) :=
    .intro [] (.served (by rw [asked, List.append_nil])) got
  rwa [givenBack, List.flatMap_nil, List.append_nil] at all

theorem Opening.asks (h : Opening targets ids left said) :
    Dialogue targets (asking ids left).1 (said ++ (asking ids left).2) := by
  cases left with
  | nil => exact .live h.served
  | cons target left => exact .subscribing h

theorem Owes.returns (h : Owes targets ids refusal said) :
    Dialogue targets (returning refusal ids).1 (said ++ (returning refusal ids).2) := by
  cases ids with
  | nil => exact .ended h
  | cons id ids => exact .releasing h

/-! ### Replies -/

theorem Dialogue.connected (h : Dialogue targets (.connecting ids) said) :
    Opening targets ids targets (said ++ [connected (.ok ())]) := by
  cases h with
  | connecting nothing =>
    subst nothing
    exact .intro [] rfl rfl

theorem Dialogue.unreachable (h : Dialogue targets (.connecting ids) said) (error : EndpointError) :
    Owes targets [] (some error) (said ++ [Dealing.connected (.error error)]) := by
  cases h with
  | connecting nothing => exact .intro [] (.unreachable error rfl) rfl

theorem Dialogue.granted (h : Dialogue targets (.subscribing ids (target :: left)) said)
    (id : SubscriptionId) : Opening targets (ids ++ [id]) left (said ++ [subscribed (.ok id)]) := by
  cases h with
  | subscribing opening =>
    obtain ⟨granted, asked, rfl⟩ := opening
    have more : opened granted ++ [subscribe target] ++ [subscribed (.ok id)] =
        opened (granted ++ [(target, id)]) := by simp [opened]
    rw [more]
    constructor
    · simp [asked]
    · simp

theorem Dialogue.refused (h : Dialogue targets (.subscribing ids (target :: left)) said)
    (error : EndpointError) :
    Owes targets ids (some error) (said ++ [subscribed (.error error)]) := by
  cases h with
  | subscribing opening =>
    obtain ⟨granted, asked, got⟩ := opening
    have all : Owes targets ids (some error)
        ((opened granted ++ [subscribe target, subscribed (.error error)]) ++ givenBack []) :=
      .intro [] (.refused target left error asked) got
    rw [List.append_assoc]
    rwa [givenBack, List.flatMap_nil, List.append_nil] at all

theorem Dialogue.released (h : Dialogue targets (.releasing (id :: ids) refusal) said) :
    Owes targets ids refusal (said ++ [released]) := by
  cases h with
  | releasing owes =>
    obtain ⟨given, shaken, got⟩ := owes
    rename_i front
    have more : front ++ givenBack given ++ [unsubscribe id] ++ [Dealing.released] =
        front ++ givenBack (given ++ [id]) := by simp [givenBack]
    rw [more]
    apply Owes.intro _ shaken
    rw [got, List.append_assoc]
    rfl

/-! ### What it comes to -/

variable {granted : List (τ × SubscriptionId)} {front : List (Dealing τ)}

theorem requests_opened (granted : List (τ × SubscriptionId)) :
    requests (opened granted) = granted.map Prod.fst := by
  simp [requests, opened, List.filterMap_cons, List.filterMap_flatMap, request?,
    List.map_eq_flatMap]

theorem grants_opened (granted : List (τ × SubscriptionId)) :
    grants (opened granted) = granted.map Prod.snd := by
  simp [grants, opened, List.filterMap_cons, List.filterMap_flatMap, grant?, List.map_eq_flatMap]

/-- While everything is granted nothing is refused or given back, and the start does not return. -/
theorem opened_quiet (granted : List (τ × SubscriptionId)) :
    refusals (opened granted) = [] ∧ results (opened granted) = [] ∧
      returns (opened granted) = [] ∧ (opened granted).filter isReleased = [] := by
  simp [refusals, results, returns, opened, List.filterMap_cons, List.filterMap_flatMap,
    List.filter_flatMap, refusal?, result?, return?, isReleased]

theorem returns_givenBack (ids : List SubscriptionId) :
    returns (givenBack (τ := τ) ids) = ids := by
  simp [returns, givenBack, List.filterMap_cons, List.filterMap_flatMap, return?]

theorem releases_givenBack (ids : List SubscriptionId) :
    releases (givenBack (τ := τ) ids) = ids.length := by
  induction ids with
  | nil => rfl
  | cons id ids ih =>
    rw [List.length_cons, ← ih]
    rfl

theorem givenBack_quiet (ids : List SubscriptionId) :
    requests (givenBack (τ := τ) ids) = [] ∧ grants (givenBack (τ := τ) ids) = [] ∧
      refusals (givenBack (τ := τ) ids) = [] ∧ results (givenBack (τ := τ) ids) = [] := by
  simp [requests, grants, refusals, results, givenBack, List.filterMap_cons, List.filterMap_flatMap,
    request?, grant?, refusal?, result?]

/-- A start has returned what is among the results. -/
theorem started_mem_iff {result : Except SubscriptionError Unit} :
    started result ∈ said ↔ result ∈ results said := by
  rw [List.mem_filterMap]
  constructor
  · intro mem
    exact ⟨_, mem, rfl⟩
  · rintro ⟨dealing, mem, eq⟩
    cases dealing with
    | started other => rwa [Option.some.inj eq] at mem
    | _ => cases eq

/-- What has passed when the handshake is over and this much has been given back. -/
structure Tally (targets : List τ) (given left : List SubscriptionId)
    (refusal : Option EndpointError) (said : List (Dealing τ)) : Prop where
  asked : requests said <+: targets
  granted : grants said = given ++ left
  told : returns said = given
  done : releases said = given.length
  refused : refusals said = refusal.toList
  returned : results said = if refusal = none then [.ok ()] else []
  all : refusal = none ↔ connected (.ok ()) ∈ said ∧ (given ++ left).length = targets.length
  idle : Idle said

theorem Shaken.tally (h : Shaken targets granted refusal front) :
    Tally targets [] (granted.map Prod.snd) refusal front := by
  obtain ⟨unrefused, unanswered, kept, unreleased⟩ := opened_quiet granted
  have asked' := requests_opened granted
  have got := grants_opened granted
  cases h with
  | unreachable error nothing =>
    subst nothing
    constructor
    case asked => exact List.nil_prefix
    case all => simp
    case idle => simp [Idle, isCall]
    all_goals rfl
  | refused target left error asked =>
    subst asked
    constructor
    case asked =>
      refine ⟨left, ?_⟩
      simp [asked', request?]
    case granted => simp [got, grant?]
    case told => simp [kept, return?]
    case done => simp [unreleased, isReleased]
    case refused => simp [unrefused, refusal?, List.filterMap_cons]
    case returned => simp [unanswered, result?]
    case all => simp
    case idle => simp [Idle, isCall]
  | served asked =>
    subst asked
    constructor
    case asked => simp [asked', request?, List.filterMap_cons]
    case granted => simp [got, grant?]
    case told => simp [kept, return?]
    case done => simp [unreleased, isReleased]
    case refused => simp [unrefused, refusal?]
    case returned => simp [unanswered, result?]
    case all => simp [opened]
    case idle => simp [Idle, isCall]

theorem Shaken.head (h : Shaken targets granted refusal front) : front.head? = some connect := by
  cases h <;> rfl

theorem Owes.head (h : Owes targets ids refusal said) : said.head? = some connect := by
  obtain ⟨given, shaken, -⟩ := h
  rw [List.head?_append, shaken.head, Option.some_or]

/-- A channel that has not been started has said nothing, and every other one has connected. -/
theorem Dialogue.head {position : Position τ} (h : Dialogue targets position said) :
    (∃ ids, position = .unstarted ids) ∧ said = [] ∨ said.head? = some connect := by
  cases h with
  | unstarted => exact .inl ⟨⟨_, rfl⟩, rfl⟩
  | connecting => exact .inr rfl
  | subscribing opening =>
    obtain ⟨granted, -, -⟩ := opening
    exact .inr rfl
  | live owes => exact .inr owes.head
  | releasing owes | ended owes =>
    right
    rw [List.head?_append, owes.head, Option.some_or]

theorem Dialogue.unstarted_of_nil {position : Position τ} (h : Dialogue targets position []) :
    ∃ ids, position = .unstarted ids := by
  rcases h.head with ⟨unstarted, -⟩ | connects
  · exact unstarted
  · cases connects

theorem idle_givenBack (idle : Idle front) (given : List SubscriptionId) :
    Idle (front ++ givenBack given) := by
  induction given using List.reverseRecOn with
  | nil => rwa [givenBack, List.flatMap_nil, List.append_nil]
  | append_singleton given id _ => simp [Idle, givenBack, isCall]

theorem Owes.tally (h : Owes targets ids refusal said) :
    ∃ given, Tally targets given ids refusal said := by
  obtain ⟨given, shaken, got⟩ := h
  have front := shaken.tally
  obtain ⟨unasked, ungranted, unrefused, unanswered⟩ := givenBack_quiet (τ := τ) given
  have told := returns_givenBack (τ := τ) given
  have done := releases_givenBack (τ := τ) given
  refine ⟨given, ?_⟩
  constructor
  case asked => simp [front.asked, unasked]
  case granted => simp [front.granted, ungranted, got]
  case told => simp [front.told, told]
  case done =>
    rw [releases, List.filter_append, List.length_append]
    change releases _ + releases _ = _
    rw [front.done, done]
    exact Nat.zero_add _
  case refused => simp [front.refused, unrefused]
  case returned => simp [front.returned, unanswered]
  case all =>
    rw [front.all, List.nil_append, got]
    simp [givenBack]
  case idle => exact idle_givenBack front.idle given

/-- As long as the task goes on and no start has failed, there is nothing to tell of a failure. -/
theorem fair_of_going (asks : requests said <+: targets) (owed : returns said <+: grants said)
    (ok_iff : .ok () ∈ results said ↔
      connected (.ok ()) ∈ said ∧ (grants said).length = targets.length)
    (fine : ∀ error, .error error ∉ results said)
    (waits : connect ∈ said → Idle said → results said ≠ []) :
    FairDealing targets False False said where
  connects := False.elim
  asks := asks
  owed := owed
  ended := False.elim
  started_ok_iff := started_mem_iff.trans ok_iff
  failed before error after split := by
    refine absurd (started_mem_iff.1 ?_) (fine error)
    simp [split]
  returns := waits

theorem Opening.fair (h : Opening targets ids (target :: left) said) :
    FairDealing targets False False (said ++ [subscribe target]) := by
  obtain ⟨granted, rfl, rfl⟩ := h
  obtain ⟨-, unanswered, kept, -⟩ := opened_quiet granted
  have got : grants (opened granted ++ [subscribe target]) = granted.map Prod.snd := by
    simp [grants_opened granted, grant?]
  have returned : results (opened granted ++ [subscribe target]) = [] := by
    simp [unanswered, result?]
  apply fair_of_going
  case asks =>
    refine ⟨left, ?_⟩
    simp [requests_opened granted, request?]
  case owed => simp [kept, return?, List.filterMap_cons]
  case ok_iff =>
    rw [returned, got]
    simp
  case fine => simp [returned]
  case waits => simp [Idle, isCall]

theorem Tally.going_live {given : List SubscriptionId} (h : Tally targets given ids none said) :
    FairDealing targets False False said := by
  have returned : results said = [.ok ()] := h.returned
  apply fair_of_going h.asked
  case owed =>
    rw [h.told, h.granted]
    exact List.prefix_append given ids
  case ok_iff =>
    rw [returned, h.granted, ← h.all]
    simp
  case fine => simp [returned]
  case waits => simp [returned]

theorem Tally.going_releasing {given : List SubscriptionId}
    (h : Tally targets given (id :: ids) refusal said) :
    FairDealing targets False False (said ++ [unsubscribe id]) := by
  have returned : results (said ++ [unsubscribe id]) = results said := by simp [result?]
  have told : returns (said ++ [unsubscribe id]) = given ++ [id] := by simp [h.told, return?]
  have granted : grants (said ++ [unsubscribe id]) = given ++ id :: ids := by
    simp [h.granted, grant?]
  apply fair_of_going
  case asks => simpa [request?, List.filterMap_cons] using h.asked
  case owed =>
    rw [told, granted, List.append_cons given id ids]
    exact List.prefix_append _ ids
  case ok_iff =>
    have same : connected (.ok ()) ∈ said ++ [unsubscribe id] ↔ connected (.ok ()) ∈ said := by simp
    rw [returned, granted, same, ← h.all, h.returned]
    simp
  case fine =>
    rw [returned, h.returned]
    cases refusal <;> simp
  case waits => simp [Idle, isCall]

theorem Tally.fair_ended {given : List SubscriptionId} (h : Tally targets given [] refusal said) :
    FairDealing targets False True (said ++ report refusal) := by
  have back : GivenBack said := by
    constructor
    case told => rw [h.told, h.granted, List.append_nil]
    case done => rw [h.done, h.granted, List.append_nil]
  cases refusal with
  | none =>
    have going := h.going_live
    rw [report, List.append_nil]
    refine { going with ended := fun _ => ⟨back, ?_⟩ }
    simp [h.returned]
  | some error =>
    have unanswered : results said = [] := h.returned
    have returned : results (said ++ report (some error)) = [.error (.endpoint error)] := by
      simp [unanswered, report, result?]
    have told : returns (said ++ report (some error)) = returns said := by simp [report, return?]
    have granted : grants (said ++ report (some error)) = grants said := by simp [report, grant?]
    have all : returns (said ++ report (some error)) = grants (said ++ report (some error)) := by
      rw [told, granted, back.told]
    constructor
    case connects => exact False.elim
    case asks => simpa [report, request?, List.filterMap_cons] using h.asked
    case owed => exact all ▸ List.prefix_refl _
    case ended =>
      intro _
      rw [returned]
      refine ⟨⟨all, ?_⟩, rfl⟩
      rw [granted, ← back.done]
      simp [releases, report, isReleased]
    case started_ok_iff =>
      have same : connected (.ok ()) ∈ said ++ report (some error) ↔ connected (.ok ()) ∈ said := by
        simp [report]
      rw [started_mem_iff, returned, granted, same, h.granted, ← h.all]
      simp
    case failed =>
      intro before error' after split
      obtain ⟨rfl, last, rfl⟩ | ⟨between, -, rfl⟩ := History.concat_eq_append_cons_iff.1 split
      · have refused : refusals said = [error] := h.refused
        refine ⟨back, h.idle, rfl, error, by rw [refused]; rfl, ?_⟩
        injection last with same
        injection same with same
        exact same.symm
      · simp [result?] at unanswered
    case returns => simp [returned]

theorem Dialogue.fair_unbegun {position : Position τ} (h : Dialogue targets position said) :
    FairDealing targets False (position = .ended) said := by
  cases h with
  | unstarted =>
    simp only [reduceCtorEq]
    apply fair_of_going <;> simp
  | connecting =>
    simp only [reduceCtorEq]
    apply fair_of_going
    case asks => exact List.nil_prefix
    case owed => exact List.nil_prefix
    case ok_iff => simp [result?]
    case fine => simp [result?]
    case waits => simp [Idle, isCall]
  | subscribing opening =>
    simp only [reduceCtorEq]
    exact opening.fair
  | live owes =>
    obtain ⟨given, tally⟩ := owes.tally
    simp only [reduceCtorEq]
    exact tally.going_live
  | releasing owes =>
    obtain ⟨given, tally⟩ := owes.tally
    simp only [reduceCtorEq]
    exact tally.going_releasing
  | ended owes =>
    obtain ⟨given, tally⟩ := owes.tally
    simp only
    exact tally.fair_ended

/-- A dialogue is fair dealing. -/
theorem Dialogue.fair {position : Position τ} {begun : Prop} (h : Dialogue targets position said)
    (spoken : begun → said ≠ []) : FairDealing targets begun (position = .ended) said where
  __ := h.fair_unbegun
  connects began := by
    rcases h.head with ⟨-, nothing⟩ | connects
    · exact absurd nothing (spoken began)
    · exact connects

/-! ### What is heard -/

/-- The reply that a channel waits for. -/
def Position.Awaits : Position τ → Dealing τ → Prop
  | .connecting _, connected _ => True
  | .subscribing _ _, subscribed _ => True
  | .releasing _ _, released => True
  | _, _ => False

theorem Dialogue.idle_of_live (h : Dialogue targets (.live ids) said) : Idle said := by
  cases h with
  | live owes =>
    obtain ⟨given, tally⟩ := owes.tally
    exact tally.idle

theorem Dialogue.idle_of_ended (h : Dialogue targets .ended said) : Idle said := by
  cases h with
  | @ended refusal said owes =>
    obtain ⟨given, tally⟩ := owes.tally
    cases refusal with
    | none =>
      rw [report, List.append_nil]
      exact tally.idle
    | some error => simp [Idle, report, isCall]

/-- A subscription was asked for last exactly when it is waited for. -/
theorem Dialogue.asked_iff {position : Position τ} (h : Dialogue targets position said) :
    said.getLast? = some (subscribe target) ↔
      ∃ ids left, position = .subscribing ids (target :: left) := by
  have unasked (idle : Idle said) : said.getLast? ≠ some (subscribe target) := by
    intro last
    have uncalled := idle _ last
    cases uncalled
  cases position with
  | unstarted ids =>
    cases h
    simp
  | connecting ids =>
    cases h
    simp
  | subscribing ids targets =>
    cases h
    simp [eq_comm]
  | live ids => simp [unasked h.idle_of_live]
  | releasing ids refusal =>
    cases h
    simp
  | ended => simp [unasked h.idle_of_ended]

/-- What is asked for is the first target that nothing was granted for yet. -/
theorem Dialogue.target_asked {position : Position τ} (h : Dialogue targets position said)
    (asked : said.getLast? = some (subscribe target)) :
    targets[(grants said).length]? = some target := by
  obtain ⟨ids, left, rfl⟩ := h.asked_iff.1 asked
  cases h with
  | subscribing opening =>
    obtain ⟨granted, rfl, -⟩ := opening
    have got : (grants (opened granted ++ [subscribe target])).length =
        (granted.map Prod.fst).length := by
      simp [grants_opened granted, grant?, List.filterMap_cons]
    rw [got, List.getElem?_append_right (Nat.le_refl _), Nat.sub_self]
    rfl

theorem not_answers_of_idle (idle : Idle said) {call : Dealing τ} (last : call ∈ said.getLast?)
    (reply : Dealing τ) : call.answers reply = false := by
  have uncalled := idle call last
  cases call with
  | connect => cases uncalled
  | subscribe target => cases uncalled
  | unsubscribe id => cases uncalled
  | _ => rfl

section Heard

variable {ι ο : Type} {reply? : ι → Option (Dealing τ)} {dealing? : ο → Option (Dealing τ)}
  {position : Position τ} {input : ι} {reply : Dealing τ}

/-- What a channel waits for is heard. -/
theorem Dialogue.heard (h : Dialogue targets position said) (replies : reply? input = some reply)
    (awaits : position.Awaits reply) : (scribe reply? dealing?).heard said input = [reply] := by
  cases h with
  | connecting =>
    cases reply with
    | connected result =>
      have first : (scribe reply? dealing?).heard ([] ++ [.connect]) input = [.connected result] :=
        Scribe.heard_concat replies rfl
      exact first
    | _ => exact awaits.elim
  | subscribing =>
    cases reply with
    | subscribed result => exact Scribe.heard_concat replies rfl
    | _ => exact awaits.elim
  | releasing =>
    cases reply with
    | released => exact Scribe.heard_concat replies rfl
    | _ => exact awaits.elim
  | _ => exact awaits.elim

/-- Nothing else is heard. -/
theorem Dialogue.unheard (h : Dialogue targets position said)
    (unawaited : ∀ reply, reply? input = some reply → ¬ position.Awaits reply) :
    (scribe reply? dealing?).heard said input = [] := by
  cases replies : reply? input with
  | none => exact Scribe.heard_of_none replies
  | some reply =>
    have not_awaits := unawaited reply replies
    apply Scribe.heard_of_not_answers replies
    intro call last
    change call.answers reply = false
    cases position with
    | unstarted ids =>
      cases h
      cases last
    | connecting ids =>
      cases h
      obtain rfl := Option.some.inj last
      cases reply with
      | connected result => exact absurd trivial not_awaits
      | _ => rfl
    | subscribing ids targets =>
      cases h
      rw [List.getLast?_concat] at last
      obtain rfl := Option.some.inj last
      cases reply with
      | subscribed result => exact absurd trivial not_awaits
      | _ => rfl
    | releasing ids refusal =>
      cases h
      rw [List.getLast?_concat] at last
      obtain rfl := Option.some.inj last
      cases reply with
      | released => exact absurd trivial not_awaits
      | _ => rfl
    | live ids => exact not_answers_of_idle h.idle_of_live last reply
    | ended => exact not_answers_of_idle h.idle_of_ended last reply

/-- A step keeps up the dialogue if it does so both with a reply that is waited for and without. -/
theorem Dialogue.entries {after : Position τ} {outputs : List (Dealing τ)}
    (h : Dialogue targets position said)
    (replied : ∀ reply, reply? input = some reply → position.Awaits reply →
      Dialogue targets after ((said ++ [reply]) ++ outputs))
    (unreplied : (∀ reply, reply? input = some reply → ¬ position.Awaits reply) →
      Dialogue targets after (said ++ outputs)) :
    Dialogue targets after (said ++ ((scribe reply? dealing?).heard said input ++ outputs)) := by
  rw [← List.append_assoc]
  by_cases awaits : ∃ reply, reply? input = some reply ∧ position.Awaits reply
  · obtain ⟨reply, replies, awaits⟩ := awaits
    rw [h.heard replies awaits]
    exact replied reply replies awaits
  · have unawaited : ∀ reply, reply? input = some reply → ¬ position.Awaits reply :=
      fun reply replies waits => awaits ⟨reply, replies, waits⟩
    rw [h.unheard unawaited, List.append_nil]
    exact unreplied unawaited

end Heard

end Dialogue

end LedgerWatch
