import Mathlib.Data.Nat.Notation
import Mathlib.Tactic.Ring

/-!
# The chunked transfer coding

A decoder for a sequence of chunks: a size in hexadecimal digits, CRLF, that many
bytes, CRLF; a chunk of size zero ends the message with a further CRLF. Extensions
and trailers are not decoded. What follows the message is returned beside the body.
-/
namespace Chunked

def cr : UInt8 := 13
def lf : UInt8 := 10

def hexDigit (d : Nat) : UInt8 := if d < 10 then (48 + d).toUInt8 else (87 + d).toUInt8

/-- Exactly `width` digits, the most significant first. -/
def hexFixed : (width n : Nat) → List UInt8
  | 0, _ => []
  | width + 1, n => hexFixed width (n / 16) ++ [hexDigit (n % 16)]

def hexValue (b : UInt8) : Option Nat :=
  if 48 ≤ b ∧ b ≤ 57 then some (b.toNat - 48)
  else if 97 ≤ b ∧ b ≤ 102 then some (b.toNat - 87)
  else if 65 ≤ b ∧ b ≤ 70 then some (b.toNat - 55)
  else none

/-- Read digits as long as there are any. -/
def readHex : Nat → List UInt8 → Nat × List UInt8
  | acc, [] => (acc, [])
  | acc, b :: rest =>
    match hexValue b with
    | some d => readHex (16 * acc + d) rest
    | none => (acc, b :: rest)

theorem hexValue_hexDigit : ∀ d < 16, hexValue (hexDigit d) = some d := by decide

theorem hexFixed_length (width n : Nat) : (hexFixed width n).length = width := by
  induction width generalizing n with
  | zero => rfl
  | succ width ih => simp [hexFixed, ih]

theorem readHex_hexFixed (width n acc : Nat) (rest : List UInt8) :
    readHex acc (hexFixed width n ++ rest) = readHex (acc * 16 ^ width + n % 16 ^ width) rest := by
  induction width generalizing n rest with
  | zero => simp [hexFixed, Nat.mod_one]
  | succ width ih =>
    have hdigit : hexValue (hexDigit (n % 16)) = some (n % 16) :=
      hexValue_hexDigit _ (Nat.mod_lt _ (by omega))
    have hmod : n % 16 ^ (width + 1) = n % 16 + 16 * (n / 16 % 16 ^ width) := by
      rw [pow_succ', Nat.mod_mul]
    have hacc : 16 * (acc * 16 ^ width + n / 16 % 16 ^ width) + n % 16 =
        acc * 16 ^ (width + 1) + n % 16 ^ (width + 1) := by
      rw [hmod]
      ring
    calc readHex acc (hexFixed (width + 1) n ++ rest)
        = readHex acc (hexFixed width (n / 16) ++ hexDigit (n % 16) :: rest) := by
          simp [hexFixed]
      _ = readHex (acc * 16 ^ width + n / 16 % 16 ^ width) (hexDigit (n % 16) :: rest) := ih _ _
      _ = readHex (16 * (acc * 16 ^ width + n / 16 % 16 ^ width) + n % 16) rest := by
          simp [readHex, hdigit]
      _ = _ := by rw [hacc]

def readCrlf : List UInt8 → Option (List UInt8)
  | b :: c :: rest => if b = cr ∧ c = lf then some rest else none
  | _ => none

/-- A size line holds at least one digit. -/
def readSize (input : List UInt8) : Option (Nat × List UInt8) :=
  match input with
  | [] => none
  | b :: _ =>
    if (hexValue b).isNone then none
    else (readCrlf (readHex 0 input).2).map fun rest => ((readHex 0 input).1, rest)

/-- `fuel` bounds the number of chunks. -/
def decodeFrom : (fuel : Nat) → List UInt8 → Option (List UInt8 × List UInt8)
  | 0, _ => none
  | fuel + 1, input => do
    let (size, rest) ← readSize input
    if size = 0 then
      let left ← readCrlf rest
      return ([], left)
    else if rest.length < size then none
    else
      let next ← readCrlf (rest.drop size)
      let (body, left) ← decodeFrom fuel next
      return (rest.take size ++ body, left)

/-- The body of a message and what follows the message. -/
def decode (input : List UInt8) : Option (List UInt8 × List UInt8) :=
  decodeFrom input.length input

theorem readCrlf_crlf (rest : List UInt8) : readCrlf (cr :: lf :: rest) = some rest := by
  simp [readCrlf]

theorem readCrlf_suffix {input left : List UInt8} (h : readCrlf input = some left) :
    input = [cr, lf] ++ left := by
  rcases input with _ | ⟨b, _ | ⟨c, rest⟩⟩
  · cases h
  · cases h
  · by_cases hbc : b = cr ∧ c = lf
    · have hrest : rest = left := by simpa [readCrlf, hbc] using h
      rw [hbc.1, hbc.2, hrest]
      rfl
    · simp [readCrlf, hbc] at h

theorem hexFixed_head (width n : Nat) :
    ∃ b tail, hexFixed (width + 1) n = b :: tail ∧ (hexValue b).isNone = false := by
  induction width generalizing n with
  | zero =>
    have hdigit := hexValue_hexDigit (n % 16) (Nat.mod_lt _ (by omega))
    exact ⟨hexDigit (n % 16), [], rfl, by rw [hdigit]; rfl⟩
  | succ width ih =>
    obtain ⟨b, tail, hb, hv⟩ := ih (n / 16)
    exact ⟨b, tail ++ [hexDigit (n % 16)], by rw [hexFixed, hb]; rfl, hv⟩

theorem readSize_hexFixed (width n : Nat) (hn : n < 16 ^ (width + 1)) (rest : List UInt8) :
    readSize (hexFixed (width + 1) n ++ cr :: lf :: rest) = some (n, rest) := by
  have hcr : hexValue cr = none := by decide
  have hread : readHex 0 (hexFixed (width + 1) n ++ cr :: lf :: rest) = (n, cr :: lf :: rest) := by
    rw [readHex_hexFixed, Nat.mod_eq_of_lt hn]
    simp [readHex, hcr]
  obtain ⟨b, tail, hb, hv⟩ := hexFixed_head width n
  rw [hb] at hread ⊢
  rw [List.cons_append] at hread ⊢
  simp [readSize, hv, hread, readCrlf_crlf]

theorem readHex_suffix (input : List UInt8) (acc : Nat) :
    ∃ digits, input = digits ++ (readHex acc input).2 := by
  induction input generalizing acc with
  | nil => exact ⟨[], rfl⟩
  | cons b rest ih =>
    cases hv : hexValue b with
    | none => exact ⟨[], by simp [readHex, hv]⟩
    | some d =>
      obtain ⟨digits, hd⟩ := ih (16 * acc + d)
      exact ⟨b :: digits, by simpa [readHex, hv] using hd⟩

theorem readSize_suffix {input rest : List UInt8} {size : Nat}
    (h : readSize input = some (size, rest)) : ∃ line, input = line ++ rest := by
  rcases input with _ | ⟨b, bs⟩
  · cases h
  · obtain ⟨digits, hd⟩ := readHex_suffix (b :: bs) 0
    cases hc : readCrlf (readHex 0 (b :: bs)).2 with
    | none => simp [readSize, hc] at h
    | some tail =>
      have htail : tail = rest := by
        simp only [readSize, hc, Option.map_some] at h
        split at h
        · cases h
        · cases h
          rfl
      rw [readCrlf_suffix hc, htail] at hd
      exact ⟨digits ++ [cr, lf], by rw [List.append_assoc]; exact hd⟩

/-- One chunk of a body that is not empty, then whatever the rest decodes to. -/
theorem decodeFrom_chunk {size : List UInt8} {body rest : List UInt8} (fuel : Nat)
    (hsize : ∀ tail, readSize (size ++ cr :: lf :: tail) = some (body.length, tail))
    (hbody : body ≠ []) :
    decodeFrom (fuel + 1) (size ++ cr :: lf :: (body ++ cr :: lf :: rest)) =
      (decodeFrom fuel rest).map fun (more, left) => (body ++ more, left) := by
  have hne : body.length ≠ 0 := by
    intro h
    exact hbody (List.length_eq_zero_iff.mp h)
  have hlen : ¬ (body ++ cr :: lf :: rest).length < body.length := by simp
  have hdrop : (body ++ cr :: lf :: rest).drop body.length = cr :: lf :: rest := by simp
  have htake : (body ++ cr :: lf :: rest).take body.length = body := by simp
  simp only [decodeFrom, hsize, Option.bind_eq_bind, Option.bind_some, if_neg hne, if_neg hlen,
    hdrop, htake, readCrlf_crlf]
  cases decodeFrom fuel rest <;> rfl

/-- The last chunk and the final CRLF. -/
theorem decodeFrom_last {size : List UInt8} {rest : List UInt8} (fuel : Nat)
    (hsize : ∀ tail, readSize (size ++ cr :: lf :: tail) = some (0, tail)) :
    decodeFrom (fuel + 1) (size ++ cr :: lf :: cr :: lf :: rest) = some ([], rest) := by
  simp [decodeFrom, hsize, readCrlf_crlf]

/-- A message ends with a line feed, wherever it ends. -/
theorem decodeFrom_ends {fuel : Nat} {input body left : List UInt8}
    (h : decodeFrom fuel input = some (body, left)) : ∃ before, input = before ++ lf :: left := by
  induction fuel generalizing input body with
  | zero => cases h
  | succ fuel ih =>
    cases hs : readSize input with
    | none => simp [decodeFrom, hs] at h
    | some p =>
      obtain ⟨size, rest⟩ := p
      obtain ⟨line, hline⟩ := readSize_suffix hs
      simp only [decodeFrom, hs, Option.bind_eq_bind, Option.bind_some] at h
      by_cases hzero : size = 0
      · rw [if_pos hzero] at h
        cases hc : readCrlf rest with
        | none => simp [hc] at h
        | some tail =>
          have htail : tail = left := by
            rw [hc] at h
            cases h
            rfl
          rw [readCrlf_suffix hc, htail] at hline
          exact ⟨line ++ [cr], by simpa using hline⟩
      · rw [if_neg hzero] at h
        by_cases hlen : rest.length < size
        · simp [hlen] at h
        · rw [if_neg hlen] at h
          cases hc : readCrlf (rest.drop size) with
          | none => simp [hc] at h
          | some next =>
            rw [hc, Option.bind_some] at h
            cases hd : decodeFrom fuel next with
            | none => simp [hd] at h
            | some q =>
              obtain ⟨more, tail⟩ := q
              have htail : tail = left := by
                rw [hd] at h
                cases h
                rfl
              rw [htail] at hd
              obtain ⟨before, hbefore⟩ := ih hd
              have hsplit := List.take_append_drop size rest
              rw [readCrlf_suffix hc, hbefore] at hsplit
              rw [← hsplit] at hline
              exact ⟨line ++ (rest.take size ++ ([cr, lf] ++ before)), by simpa using hline⟩

/-- A size line is a digit and a CRLF at least. -/
theorem readSize_length {input rest : List UInt8} {size : Nat}
    (h : readSize input = some (size, rest)) : rest.length + 3 ≤ input.length := by
  rcases input with _ | ⟨b, bs⟩
  · cases h
  · cases hv : hexValue b with
    | none => simp [readSize, hv] at h
    | some d =>
      have hread : readHex 0 (b :: bs) = readHex d bs := by simp [readHex, hv]
      obtain ⟨digits, hdigits⟩ := readHex_suffix bs d
      simp only [readSize, hv, Option.isNone_some, Bool.false_eq_true, if_false, hread,
        Option.map_eq_some_iff, Prod.mk.injEq] at h
      obtain ⟨tail, hcrlf, -, rfl⟩ := h
      rw [readCrlf_suffix hcrlf] at hdigits
      have hlength := congrArg List.length hdigits
      simp only [List.length_append, List.length_cons, List.length_nil] at hlength ⊢
      omega

/-- What a decoded message starts with: the last chunk, or a chunk and the rest. -/
theorem decodeFrom_cases {fuel : Nat} {input body left : List UInt8}
    (h : decodeFrom (fuel + 1) input = some (body, left)) :
    ∃ size rest, readSize input = some (size, rest) ∧
      (size = 0 ∧ body = [] ∧ readCrlf rest = some left ∨
        size ≠ 0 ∧ size ≤ rest.length ∧ ∃ next more, readCrlf (rest.drop size) = some next ∧
          decodeFrom fuel next = some (more, left) ∧ body = rest.take size ++ more) := by
  cases hs : readSize input with
  | none => simp [decodeFrom, hs] at h
  | some p =>
    obtain ⟨size, rest⟩ := p
    apply Exists.intro size
    apply Exists.intro rest
    apply And.intro rfl
    simp only [decodeFrom, hs, Option.bind_eq_bind, Option.bind_some] at h
    by_cases hzero : size = 0
    · left
      rw [if_pos hzero] at h
      obtain ⟨tail, htail, hpair⟩ := Option.bind_eq_some_iff.mp h
      cases hpair
      exact ⟨hzero, rfl, htail⟩
    · right
      rw [if_neg hzero] at h
      by_cases hlen : rest.length < size
      · simp [hlen] at h
      · rw [if_neg hlen] at h
        obtain ⟨next, hnext, h⟩ := Option.bind_eq_some_iff.mp h
        obtain ⟨⟨more, tail⟩, hmore, hpair⟩ := Option.bind_eq_some_iff.mp h
        cases hpair
        exact ⟨hzero, by omega, next, more, hnext, hmore, rfl⟩

/-- Every chunk takes five bytes beside its data, and so does the last one. -/
theorem decodeFrom_length {fuel : Nat} {input body left : List UInt8}
    (h : decodeFrom fuel input = some (body, left)) :
    body.length + left.length + 5 ≤ input.length ∧
      (body ≠ [] → body.length + left.length + 10 ≤ input.length) := by
  induction fuel generalizing input body with
  | zero => cases h
  | succ fuel ih =>
    obtain ⟨size, rest, hsize, hlast | ⟨-, hle, next, more, hnext, hmore, rfl⟩⟩ :=
      decodeFrom_cases h
    · obtain ⟨-, rfl, hcrlf⟩ := hlast
      have hline := readSize_length hsize
      rw [readCrlf_suffix hcrlf, List.length_append] at hline
      simp only [List.length_cons, List.length_nil] at hline ⊢
      exact ⟨by omega, fun hne => absurd rfl hne⟩
    · have hline := readSize_length hsize
      have hdrop := congrArg List.length (readCrlf_suffix hnext)
      have hbound := (ih hmore).1
      simp only [List.length_append, List.length_cons, List.length_nil, List.length_drop,
        List.length_take] at hdrop ⊢
      have htotal : min size rest.length + more.length + left.length + 10 ≤ input.length := by
        omega
      exact ⟨by omega, fun _ => htotal⟩

end Chunked
