import LedgerWatch.Config
import LedgerWatch.Proofs.Json.Written
import Mathlib.Data.List.Basic
import Mathlib.Data.List.Nodup
import Mathlib.Data.List.Perm.Basic

/-!
# A configuration is read as it was written

The members of a written configuration may come in any order, those that hold a default may be left
out, and others whose names are no fields may be put between them (`Variation`): the configuration
that is read stays the same, and so does the first fault of its values (`read_variation`). What a
field reads depends only on the members of its name (`only_perm`, `only_append`), of which a
variation keeps one or, at the default, none (`only_variation`).
-/

namespace LedgerWatch

namespace Json

/-! ## Members by name -/

variable {name : String} {v : Json} {members more : List (String × Json)}

theorem members?_object (members : List (String × Json)) :
    (object members).members? = some members := by
  rw [object, members?, List.mapM_map]
  have whole := List.mapM_pure (m := Option) (l := members) (f := fun m => m)
  rw [List.map_id'] at whole
  exact whole

/-- The order of members does not matter. -/
theorem only_perm (perm : members.Perm more) : only name members = only name more := by
  have found := perm.filter (fun m => m.1 == name)
  unfold only
  generalize members.filter (fun m => m.1 == name) = xs at found
  generalize more.filter (fun m => m.1 == name) = ys at found
  match ys with
  | [] => rw [found.eq_nil]
  | [m] => rw [List.perm_singleton.1 found]
  | m :: m' :: ys =>
    match xs, found.length_eq with
    | x :: x' :: xs, _ => rfl

/-- Members of other names do not matter. -/
theorem only_append (others : ∀ m ∈ more, m.1 ≠ name) :
    only name (members ++ more) = only name members := by
  have dropped : more.filter (fun m => m.1 == name) = [] := by
    rw [List.filter_eq_nil_iff]
    intro m mem
    simpa using others m mem
  rw [only, only, List.filter_append, dropped, List.append_nil]

theorem only_of_forall_ne (absent : ∀ m ∈ members, m.1 ≠ name) :
    only name members = some none := by
  rw [← List.nil_append members, only_append absent]
  rfl

theorem only_of_mem (distinct : (members.map Prod.fst).Nodup) (mem : (name, v) ∈ members) :
    only name members = some (some v) := by
  obtain ⟨before, after, rfl⟩ := List.append_of_mem mem
  have first : (before ++ (name, v) :: after).Perm ([(name, v)] ++ (before ++ after)) :=
    List.perm_middle
  have distinct := (first.map Prod.fst).nodup_iff.1 distinct
  have others : ∀ m ∈ before ++ after, m.1 ≠ name := by
    intro m found same
    have there := List.mem_map_of_mem (f := Prod.fst) found
    rw [same] at there
    exact (List.nodup_cons.1 distinct).1 there
  rw [only_perm first, only_append others]
  simp [only]

theorem eq_of_distinct {w : Json} (distinct : (members.map Prod.fst).Nodup)
    (mem : (name, v) ∈ members) (mem' : (name, w) ∈ members) : v = w := by
  have found := only_of_mem distinct mem
  rw [only_of_mem distinct mem'] at found
  exact (Option.some.inj (Option.some.inj found)).symm

end Json

namespace ChannelMode

theorem ofJson?_object {members : List (String × Json)}
    (shallow : (Json.object members).depth + 1 ≤ deepest)
    (plain : (Json.object members).isPlain = true) :
    ofJson? (.object members) = ofMembers? members := by
  have found := Json.members?_object members
  unfold ofJson?
  rw [guard, if_pos ⟨shallow, plain⟩]
  show (Json.object members).members?.bind ofMembers? = ofMembers? members
  rw [found, Option.bind_some]

theorem ofJson?_toJson (mode : ChannelMode) : ofJson? mode.toJson = some mode := by
  cases mode with
  | polling frequency =>
    have read := Json.u64?_nat frequency
    have finite := Json.isFinite_toString frequency
    have shallow : (polling frequency).toJson.depth + 1 ≤ deepest := Nat.le_of_ble_eq_true rfl
    have plain : (polling frequency).toJson.isPlain = true := by
      simp only [toJson, Json.object, List.map, Json.isPlain, Json.plainMembers, Json.string,
        Json.nat, finite, Option.isSome_some, Bool.and_self]
    rw [toJson, ofJson?_object shallow plain]
    simp [ofMembers?, Json.only, Json.string, Json.text?, read]
  | websocket => rfl
  | logs => rfl

end ChannelMode

namespace Config

open Json (Spells Proper)

/-- A well-formed member of an object: its name, its value, and the text it is written as. -/
structure Member where
  name : String
  value : Json
  text : List Char
  wellFormed : Spells (.member (some name, value)) text

/-- The member as the writer writes it. -/
def Member.written (m : String × Json) (proper : Proper m.2) : Member where
  name := m.1
  value := m.2
  text := Json.stringChars (some m.1) ++ ':' :: m.2.chars
  wellFormed := Json.spells_member (some m.1) proper.spells

def Member.pair (m : Member) : String × Json := (m.name, m.value)

/-- The text of an object of these members. -/
def objectText (members : List Member) : String :=
  String.ofList ('\x7b' :: [','].intercalate (members.map Member.text) ++ ['\x7d'])

/-- The members that are written. -/
def members (c : Config) : List (String × Json) := [
  ("program_id", .string c.programId),
  ("rpc_url", .string c.rpcUrl),
  ("ws_url", .string c.wsUrl),
  ("commitment", .string c.commitment),
  ("channel", c.channel.toJson),
  ("resub_timeout_ms", match c.resubTimeout with
    | some timeout => .nat timeout.toNat
    | none => .null),
  ("stall_check_interval_ms", .nat c.stallCheckInterval.toNat)]

theorem proper_channel (mode : ChannelMode) : Proper mode.toJson := by
  have tagged (tag : String) : ∀ m ∈ [("type", Json.string tag)], Proper m.2 := by
    intro m mem
    obtain rfl := List.mem_singleton.1 mem
    exact .str (some tag)
  cases mode with
  | polling frequency =>
    apply Proper.object
    intro m mem
    rcases List.mem_cons.1 mem with rfl | mem
    · exact .str _
    · obtain rfl := List.mem_singleton.1 mem
      exact Json.proper_nat frequency.toNat
  | websocket => exact .object (tagged "websocket")
  | logs => exact .object (tagged "logs")

theorem proper_members (c : Config) : ∀ m ∈ c.members, Proper m.2 := by
  simp only [members, List.forall_mem_cons]
  refine ⟨.str _, .str _, .str _, .str _, proper_channel c.channel, ?_, Json.proper_nat _, ?_⟩
  · cases c.resubTimeout with
    | none => exact .null
    | some timeout => exact Json.proper_nat timeout.toNat
  · intro m mem
    cases mem

def written (c : Config) : List Member := c.members.pmap Member.written c.proper_members

theorem text_eq (c : Config) : c.text = objectText c.written := by
  change (Json.object c.members).write = objectText c.written
  simp [Json.write, Json.object, Json.chars, Json.memberChars, members,
    objectText, written, Member.written, List.intercalate]

/-- The members written for a configuration, in any order, without some that hold a default and
with others whose names are no fields. -/
inductive Variation (c : Config) : List Member → Prop
  | intro {kept inserted members : List Member} (kept_sublist : kept.Sublist c.written)
      (defaults : ∀ m ∈ c.written, m ∈ kept ∨ m ∈ ({} : Config).written)
      (others : ∀ m ∈ inserted, m.name ∉ fieldNames) (perm : members.Perm (kept ++ inserted)) :
      Variation c members

theorem Variation.written (c : Config) : Variation c c.written := by
  have whole : c.written.Perm (c.written ++ []) := by rw [List.append_nil]
  exact .intro (List.Sublist.refl _) (fun m mem => .inl mem)
    (fun m mem => absurd mem List.not_mem_nil) whole

variable {c : Config} {ms : List Member} {name : String} {v d : Json}

theorem map_pair_written (c : Config) : c.written.map Member.pair = c.members := by
  rfl

theorem distinct_members (c : Config) : (c.members.map Prod.fst).Nodup := by
  have names : c.members.map Prod.fst = fieldNames := rfl
  rw [names]
  decide

/-- A field is there as it was written, or it was the default and is not there. -/
theorem only_variation (varied : Variation c ms) (mem : (name, v) ∈ c.members)
    (default_ : (name, d) ∈ ({} : Config).members) :
    Json.only name (ms.map Member.pair) = some (some v) ∨
      Json.only name (ms.map Member.pair) = some none ∧ v = d := by
  obtain ⟨kept_sublist, defaults, others, perm⟩ := varied
  rename_i kept inserted
  have field_name : name ∈ fieldNames := List.mem_map_of_mem (f := Prod.fst) mem
  have others' : ∀ m ∈ inserted.map Member.pair, m.1 ≠ name := by
    intro m found same
    obtain ⟨original, mem_inserted, rfl⟩ := List.mem_map.1 found
    subst same
    exact others original mem_inserted field_name
  have kept_members : (kept.map Member.pair).Sublist c.members := kept_sublist.map Member.pair
  rw [Json.only_perm (perm.map Member.pair), List.map_append, Json.only_append others']
  by_cases there : (name, v) ∈ kept.map Member.pair
  · have distinct := c.distinct_members.sublist (kept_members.map Prod.fst)
    exact .inl (Json.only_of_mem distinct there)
  · have absent : ∀ m ∈ kept.map Member.pair, m.1 ≠ name := by
      rintro ⟨_, w⟩ found rfl
      have same := Json.eq_of_distinct c.distinct_members mem (kept_members.subset found)
      exact there (same ▸ found)
    refine .inr ⟨Json.only_of_forall_ne absent, ?_⟩
    rw [← map_pair_written] at mem
    obtain ⟨m, mem, pair⟩ := List.mem_map.1 mem
    rcases defaults m mem with found | found
    · exact absurd (pair ▸ List.mem_map_of_mem found) there
    · have default' : (name, v) ∈ ({} : Config).members :=
        pair ▸ List.mem_map_of_mem (f := Member.pair) found
      exact Json.eq_of_distinct (distinct_members {}) default' default_

/-- A field whose written value and whose default can be read is read from every variation. -/
theorem field_variation {α : Type} {read : Json → Option α} {a default : α}
    (varied : Variation c ms) (place : Nat) (at_place : c.members[place]? = some (name, v))
    (default_at : ({} : Config).members[place]? = some (name, d)) (read_v : read v = some a)
    (read_d : read d = some default) :
    field (ms.map Member.pair) name default read = some a := by
  have mem := List.mem_of_getElem? at_place
  have default_ := List.mem_of_getElem? default_at
  rcases only_variation varied mem default_ with found | ⟨found, rfl⟩
  · simp only [field, found, Option.bind_eq_bind, Option.bind_some, read_v]
  · rw [read_v] at read_d
    simp only [field, found, Option.bind_eq_bind, Option.bind_some, Option.pure_def, read_d]

theorem optionalU64?_timeout (timeout : Option UInt64) :
    optionalU64? (match timeout with
      | some timeout => .nat timeout.toNat
      | none => .null) = some timeout := by
  cases timeout with
  | none => rfl
  | some timeout =>
    show (Json.nat timeout.toNat).u64?.map some = some (some timeout)
    rw [Json.u64?_nat, Option.map_some]

theorem ofMembers?_variation (varied : Variation c ms) :
    ofMembers? (ms.map Member.pair) = some c := by
  have programId : field (ms.map Member.pair) "program_id" ({} : Config).programId
      Json.text? = some c.programId :=
    field_variation varied 0 rfl rfl rfl rfl
  have rpcUrl : field (ms.map Member.pair) "rpc_url" ({} : Config).rpcUrl
      Json.text? = some c.rpcUrl :=
    field_variation varied 1 rfl rfl rfl rfl
  have wsUrl : field (ms.map Member.pair) "ws_url" ({} : Config).wsUrl
      Json.text? = some c.wsUrl :=
    field_variation varied 2 rfl rfl rfl rfl
  have commitment : field (ms.map Member.pair) "commitment" ({} : Config).commitment
      Json.text? = some c.commitment :=
    field_variation varied 3 rfl rfl rfl rfl
  have channel : field (ms.map Member.pair) "channel" ({} : Config).channel
      ChannelMode.ofJson? = some c.channel :=
    field_variation varied 4 rfl rfl (ChannelMode.ofJson?_toJson _) (ChannelMode.ofJson?_toJson _)
  have resubTimeout : field (ms.map Member.pair) "resub_timeout_ms" ({} : Config).resubTimeout
      optionalU64? = some c.resubTimeout :=
    field_variation varied 5 rfl rfl (optionalU64?_timeout _) rfl
  have stallCheckInterval : field (ms.map Member.pair) "stall_check_interval_ms"
      ({} : Config).stallCheckInterval Json.u64? = some c.stallCheckInterval :=
    field_variation varied 6 rfl rfl (Json.u64?_nat _) (Json.u64?_nat _)
  simp only [ofMembers?, programId, rpcUrl, wsUrl, commitment, channel, resubTimeout,
    stallCheckInterval, Option.bind_eq_bind, Option.bind_some, Option.pure_def]

theorem spells_members (m : Member) (ms : List Member) :
    Spells (.members ((m :: ms).map fun m => (some m.name, m.value)))
      ([','].intercalate ((m :: ms).map Member.text)) := by
  induction ms generalizing m with
  | nil => simpa [List.intercalate] using Spells.lastMember m.wellFormed
  | cons next ms ih =>
    have others := ih next
    have all := Spells.members m.wellFormed others
    have texts : (m :: next :: ms).map Member.text =
        m.text :: next.text :: ms.map Member.text := rfl
    rw [List.map_cons, texts, List.intercalate_cons_cons, List.append_assoc]
    exact all

theorem parse_objectText (ms : List Member) :
    Json.parse (objectText ms) = some (.object (ms.map Member.pair)) := by
  apply Json.parse_of_spells
  apply Spells.element_of_value
  rw [objectText, String.toList_ofList, Json.object, List.map_map]
  cases ms with
  | nil => exact .noMembers Json.blanks_nil
  | cons m ms => exact .obj (spells_members m ms)

theorem read_objectText (varied : Variation c ms) : read (objectText ms) = .ok c := by
  have found : ofJson? (.object (ms.map Member.pair)) = some c := by
    have members := Json.members?_object (ms.map Member.pair)
    rw [ofJson?, members, Option.bind_some, ofMembers?_variation varied]
    exact fun items eq => nomatch eq
  rw [read, parse_objectText, Option.bind_some, found]

/-- A configuration is read from its text and from every variation of it. Every variation is valid
when the values are, and otherwise the fault of the values is reported. -/
theorem read_variation (c : Config) (ms : List Member) (varied : Variation c ms) :
    c.text = objectText c.written ∧ read c.text = .ok c ∧ read (objectText ms) = .ok c ∧
      (ofText (objectText ms) = .ok c ↔ c.validate = .ok ()) ∧
      ∀ fault, c.validate = .error fault → ofText (objectText ms) = .error fault := by
  have whole : read c.text = .ok c := by
    rw [text_eq]
    exact read_objectText (.written c)
  have found := read_objectText varied
  have validated : ofText (objectText ms) = c.validate.map fun _ => c := by
    rw [ofText, found]
    show (c.validate.bind fun _ => .ok c) = _
    cases c.validate <;> rfl
  refine ⟨c.text_eq, whole, found, ?_, ?_⟩
  · rw [validated]
    cases c.validate with
    | error fault => exact ⟨(nomatch ·), (nomatch ·)⟩
    | ok _ => exact ⟨fun _ => rfl, fun _ => rfl⟩
  · intro fault invalid
    rw [validated, invalid]
    rfl

/-- An unknown member, spelled with blanks and an escape, comes first, the others are reversed, and
the default of the first one is left out. -/
theorem read_variation_reversed : ofText ("\x7b\"no\\u0074e\" : [ true]," ++
    "\"stall_check_interval_ms\":0,\"resub_timeout_ms\":5000," ++
    "\"channel\":\x7b\"type\":\"polling\",\"frequency_ms\":250\x7d,\"commitment\":\"finalized\"," ++
    "\"ws_url\":\"\",\"rpc_url\":\"\\\"\\\\\\n\\u0001é\"\x7d") =
      .error .stallCheckIntervalZero := by
  let c : Config :=
    { rpcUrl := "\"\\\n\x01é"
      wsUrl := ""
      commitment := "finalized"
      channel := .polling 250
      resubTimeout := some 5000
      stallCheckInterval := 0 }
  have blank : Json.Blanks [' '] := by
    intro b mem
    rw [List.mem_singleton.1 mem]
    rfl
  have string : Json.StringText [.char 'n', .char 'o', .ofUnit 0x74, .char 'e']
      "no\\u0074e".toList :=
    .raw (by decide) (by decide) (by decide) <| .raw (by decide) (by decide) (by decide) <|
      .unit rfl <| .raw (by decide) (by decide) (by decide) .nil
  have item : Spells (.element (.bool true)) ([' '] ++ "true".toList ++ []) :=
    .element blank .true Json.blanks_nil
  have inside : Spells (.element (.arr [.bool true])) ([' '] ++ "[ true]".toList ++ []) :=
    .element blank (.arr (.lastItem item)) Json.blanks_nil
  let note : Member :=
    { name := "note"
      value := .arr [.bool true]
      text := [] ++ '"' :: "no\\u0074e".toList ++ '"' :: [' '] ++ ':' :: " [ true]".toList
      wellFormed := .member Json.blanks_nil string blank inside }
  have varied : Variation c (c.written.tail ++ [note]).reverse := by
    refine .intro (List.tail_sublist _) ?_ ?_ (List.reverse_perm _)
    · intro m mem
      rcases List.mem_cons.1 mem with rfl | mem
      · exact .inr List.mem_cons_self
      · exact .inl mem
    · intro m mem
      rw [List.mem_singleton.1 mem]
      show "note" ∉ fieldNames
      decide
  have invalid : c.validate = .error .stallCheckIntervalZero := by decide +kernel
  have refused := (read_variation c _ varied).2.2.2.2 _ invalid
  refine Eq.trans (congrArg ofText ?_) refused
  simp only [objectText, note, c, List.map_reverse, List.map_append, List.map_cons, List.map_nil]
  decide +kernel

end Config

end LedgerWatch
