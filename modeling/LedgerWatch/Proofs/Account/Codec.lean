import LedgerWatch.Account.Decode
import LedgerWatch.Proofs.Account.Layouts

/-!
# The account codec is exact

Account bytes decode to a value exactly when they begin with what the value encodes to
(`decode_exact`). So the padding after an account does not matter, encoding a decoded account
gives back the bytes that were read, and an account cut short anywhere does not decode. Bytes
that begin with no encoding are refused for the first of three reasons that holds: no room for
the discriminator, the discriminator of another type, a body of another layout.
-/

namespace LedgerWatch

namespace AccountType

theorem length_discriminator (t : AccountType) : t.discriminator.length = discriminatorLength := by
  rw [discriminator, LedgerWatch.discriminator, List.length_take, Digest.Sha256.length_digest]
  rfl

variable {t : AccountType} {data : Bytes}

theorem length_le_encode (value : t.Value) : discriminatorLength ≤ (t.encode value).length := by
  rw [encode, List.length_append, length_discriminator]
  omega

/-- Whatever follows an account, decoding gives the account. -/
theorem decode_encode_append (value : t.Value) (rest : Bytes) :
    t.decode (t.encode value ++ rest) = .ok value := by
  have len := t.length_discriminator
  have room : ¬ (t.encode value ++ rest).length < discriminatorLength := by
    have := length_le_encode value
    rw [List.length_append]
    omega
  have front : (t.encode value ++ rest).take discriminatorLength = t.discriminator := by
    rw [encode, List.append_assoc]
    exact List.take_left' len
  have body : (t.encode value ++ rest).drop discriminatorLength =
      t.layout.encode value ++ rest := by
    rw [encode, List.append_assoc]
    exact List.drop_left' len
  have read := t.layout_exact.decode_encode value rest
  rw [decode, if_neg room, if_neg (not_not_intro front), body, read]

/-- What decoding looks at, in its order. -/
theorem decode_cases (t : AccountType) (data : Bytes) :
    (data.length < discriminatorLength ∧
      t.decode data = .error (.tooShort discriminatorLength data.length)) ∨
    (discriminatorLength ≤ data.length ∧ data.take discriminatorLength ≠ t.discriminator ∧
      t.decode data = .error (.discriminatorMismatch t)) ∨
    (discriminatorLength ≤ data.length ∧ data.take discriminatorLength = t.discriminator ∧
      ((∃ fault, t.decode data = .error (.malformedBody fault)) ∨
        ∃ value, t.decode data = .ok value ∧ t.encode value <+: data)) := by
  by_cases short : data.length < discriminatorLength
  · left
    exact ⟨short, by rw [decode, if_pos short]⟩
  have room : discriminatorLength ≤ data.length := by omega
  by_cases front : data.take discriminatorLength = t.discriminator
  · right
    right
    refine ⟨room, front, ?_⟩
    cases read : t.layout.decode (data.drop discriminatorLength) with
    | error fault =>
      left
      exact ⟨fault, by rw [decode, if_neg short, if_neg (not_not_intro front), read]⟩
    | ok found =>
      right
      refine ⟨found.1, by rw [decode, if_neg short, if_neg (not_not_intro front), read], ?_⟩
      have written := t.layout_exact.eq_encode read
      refine ⟨found.2, ?_⟩
      rw [encode, List.append_assoc, ← written, ← front, List.take_append_drop]
  · right
    left
    exact ⟨room, front, by rw [decode, if_neg short, if_pos front]⟩

theorem decode_eq_ok_iff (value : t.Value) :
    t.decode data = .ok value ↔ t.encode value <+: data := by
  constructor
  · intro read
    rcases decode_cases t data with ⟨_, fails⟩ | ⟨_, _, fails⟩ | ⟨_, _, ⟨_, fails⟩ | found⟩
    · rw [read] at fails
      cases fails
    · rw [read] at fails
      cases fails
    · rw [read] at fails
      cases fails
    · obtain ⟨other, decoded, begins⟩ := found
      rw [read] at decoded
      cases decoded
      exact begins
  · rintro ⟨rest, rfl⟩
    exact decode_encode_append value rest

/-- No encoding goes on where another one ends. -/
theorem encode_prefix_free {a b : t.Value} (h : t.encode a <+: t.encode b) : a = b := by
  have to_a : t.decode (t.encode b) = .ok a := (decode_eq_ok_iff a).mpr h
  have to_b : t.decode (t.encode b) = .ok b := (decode_eq_ok_iff b).mpr (List.prefix_refl _)
  rw [to_a] at to_b
  cases to_b
  rfl

/-- The codec is exact for every account type: bytes decode to a value exactly when they begin
with its encoding, no account cut short decodes, and bytes that begin with no encoding are
refused for the first reason that holds. -/
theorem decode_exact (t : AccountType) (data : Bytes) :
    (∀ value, t.decode data = .ok value ↔ t.encode value <+: data) ∧
    (∀ value, data <+: t.encode value → data.length < (t.encode value).length →
      ∃ error, t.decode data = .error error) ∧
    ((∀ value, ¬ t.encode value <+: data) →
      if data.length < 8 then t.decode data = .error (.tooShort 8 data.length)
      else if data.take 8 ≠ t.discriminator then
        t.decode data = .error (.discriminatorMismatch t)
      else ∃ fault, t.decode data = .error (.malformedBody fault)) := by
  refine ⟨decode_eq_ok_iff, ?_, ?_⟩
  · intro value cut shorter
    cases read : t.decode data with
    | error error => exact ⟨error, rfl⟩
    | ok other =>
      have begins := (decode_eq_ok_iff other).mp read
      have same : other = value := encode_prefix_free (begins.trans cut)
      subst same
      have := begins.length_le
      omega
  · intro none
    have cases := decode_cases t data
    have eight : discriminatorLength = 8 := rfl
    rw [eight] at cases
    rcases cases with ⟨short, fails⟩ | ⟨room, other, fails⟩ |
      ⟨room, front, fails | ⟨value, _, begins⟩⟩
    · rw [if_pos short]
      exact fails
    · rw [if_neg (by omega), if_pos other]
      exact fails
    · rw [if_neg (by omega), if_neg (not_not_intro front)]
      exact fails
    · exact absurd begins (none value)

/-- A padded oracle decodes, and three bytes are too few for any account. -/
theorem decode_padded_and_short :
    AccountType.decode .prelaunchOracle
        (AccountType.encode .prelaunchOracle ⟨5, 7, 1, 2, 3, 4⟩ ++ [0, 0]) =
      .ok ⟨5, 7, 1, 2, 3, 4⟩ ∧
    AccountType.decode .user [1, 2, 3] = .error (.tooShort 8 3) := by
  constructor
  · exact ((decode_exact .prelaunchOracle _).1 _).mpr (List.prefix_append _ _)
  · have none : ∀ value, ¬ AccountType.encode .user value <+: [1, 2, 3] := by
      intro value begins
      have long := length_le_encode value
      have short := begins.length_le
      simp only [discriminatorLength, List.length_cons, List.length_nil] at long short
      omega
    exact (decode_exact .user [1, 2, 3]).2.2 none

end AccountType

end LedgerWatch
