import PoolFrontend.ReplyFraming

/-!
# What a client reads of a reply

A client reads the header up to the empty line and decodes the chunks after it. The size of
the chunk is written with 32 bits, so it is the size of the body below `2 ^ 32` only.
-/
namespace ReplyDecoding

open Chunked ReplyFraming
open Router (bytes)
open Server (Reply)

/-- The header with the empty line that ends it, and what follows. -/
def splitHeader : List UInt8 → Option (List UInt8 × List UInt8)
  | [] => none
  | b :: rest =>
    if rest.take 3 = [lf, cr, lf] ∧ b = cr then some (b :: rest.take 3, rest.drop 3)
    else (splitHeader rest).map fun (header, left) => (b :: header, left)

/-- A response, and the bytes that are left for the next one. -/
structure Response where
  header : List UInt8
  body : List UInt8
  left : List UInt8
  deriving DecidableEq, Repr

def received (input : List UInt8) : Option Response :=
  (splitHeader input).bind fun split =>
    (decode split.2).map fun decoded =>
      { header := split.1, body := decoded.1, left := decoded.2 }

theorem splitHeader_length {input : List UInt8} {split : List UInt8 × List UInt8}
    (h : splitHeader input = some split) : 4 ≤ input.length := by
  induction input generalizing split with
  | nil => cases h
  | cons b input ih =>
    rw [splitHeader] at h
    rw [List.length_cons]
    by_cases hend : input.take 3 = [lf, cr, lf] ∧ b = cr
    · have hthree := congrArg List.length hend.1
      rw [List.length_take] at hthree
      simp only [List.length_cons, List.length_nil] at hthree
      omega
    · rw [if_neg hend] at h
      obtain ⟨before, hsplit, -⟩ := Option.map_eq_some_iff.mp h
      have hfour := ih hsplit
      omega

/-- What stands behind a header does not move its end. -/
theorem splitHeader_append {input header left : List UInt8}
    (h : splitHeader input = some (header, left)) (rest : List UInt8) :
    splitHeader (input ++ rest) = some (header, left ++ rest) := by
  induction input generalizing header left with
  | nil => cases h
  | cons b input ih =>
    have hthree : 3 ≤ input.length := by
      have hfour := splitHeader_length h
      rw [List.length_cons] at hfour
      omega
    have htake : (input ++ rest).take 3 = input.take 3 := List.take_append_of_le_length hthree
    have hdrop : (input ++ rest).drop 3 = input.drop 3 ++ rest :=
      List.drop_append_of_le_length hthree
    rw [splitHeader] at h
    rw [List.cons_append, splitHeader, htake, hdrop]
    by_cases hend : input.take 3 = [lf, cr, lf] ∧ b = cr
    · rw [if_pos hend] at h ⊢
      cases h
      rfl
    · rw [if_neg hend] at h ⊢
      obtain ⟨⟨before, after⟩, hsplit, hpair⟩ := Option.map_eq_some_iff.mp h
      cases hpair
      rw [ih hsplit]
      rfl

variable (render : Json.Value → List UInt8)

def headerOf : Reply → List UInt8
  | .reply200 _ => reply200 []
  | .reply404 => write [] header404

/-- What a reply is meant to bring. -/
def content : Reply → List UInt8
  | .reply200 (.json value) => render value
  | .reply200 (.text text) => text.toUTF8.toList
  | .reply200 (.raw data) => data
  | .reply404 => html404

theorem queued_content (reply : Reply) :
    queued render reply = headerOf reply ++ payload (content render reply) := by
  cases reply with
  | reply200 body => cases body <;> exact chunked_payload (reply200 []) _
  | reply404 => exact chunked_payload (write [] header404) html404

theorem splitHeader_header (reply : Reply) :
    splitHeader (headerOf reply) = some (headerOf reply, []) := by
  cases reply with
  | reply200 body =>
    have hheader : splitHeader (reply200 []) = some (reply200 [], []) := by decide
    exact hheader
  | reply404 => decide

theorem received_payload (reply : Reply) :
    received (queued render reply) = (decode (payload (content render reply))).map fun decoded =>
      { header := headerOf reply, body := decoded.1, left := decoded.2 } := by
  rw [received, queued_content, splitHeader_append (splitHeader_header reply), List.nil_append]
  rfl

/-- What a decoder leaves: the zero behind the terminator, and behind an empty chunk, which
is a last chunk already, the terminator too. -/
def leftover (body : List UInt8) : List UInt8 := if body = [] then finishData.drop 2 else [0]

theorem decode_payload {body : List UInt8} (hlen : body.length < 2 ^ 32) :
    decode (payload body) = some (body, leftover body) := by
  rw [← decoded_payload []]
  by_cases hempty : body = []
  · subst hempty
    rw [decoded_empty]
    decide
  · rw [decoded_nonempty [] hempty hlen, leftover, if_neg hempty]

/-- The size line of a longer body is too small, and a second chunk would need more bytes than
there are behind it. -/
theorem decode_payload_long {body left : List UInt8} (hlen : 2 ^ 32 ≤ body.length) :
    decode (payload body) ≠ some (body, left) := by
  intro h
  have hsmall : body.length % 2 ^ 32 < 2 ^ 32 := Nat.mod_lt _ (by decide)
  have hline : readSize (payload body) = some (body.length % 2 ^ 32, body ++ finishData) := by
    have hread := readSize_hexFixed 7 (body.length % 2 ^ 32) (by omega) (body ++ finishData)
    rw [← hread, payload]
    simp only [List.append_assoc, List.cons_append, List.nil_append]
  have hfuel : (payload body).length = body.length + 17 + 1 := payload_length body
  rw [decode, hfuel] at h
  obtain ⟨size, rest, hsize, hcases⟩ := decodeFrom_cases h
  rw [hline] at hsize
  cases hsize
  obtain ⟨-, hbody, -⟩ | ⟨-, -, next, more, hnext, hmore, hbody⟩ := hcases
  · rw [hbody, List.length_nil] at hlen
    omega
  · have hfinish : finishData.length = 8 := by decide
    have hcrlf := congrArg List.length (readCrlf_suffix hnext)
    have htotal := congrArg List.length hbody
    simp only [List.length_append, List.length_take, List.length_drop, List.length_cons,
      List.length_nil, hfinish] at hcrlf htotal
    have hne : more ≠ [] := by
      intro hnil
      rw [hnil, List.length_nil] at htotal
      omega
    have hbound := (decodeFrom_length hmore).2 hne
    omega

/-- A client recovers the header and the body of a reply exactly when the body is shorter than
`2 ^ 32` bytes, and what is left then is known. -/
theorem recovered_iff (reply : Reply) (left : List UInt8) :
    received (queued render reply) = some ⟨headerOf reply, content render reply, left⟩ ↔
      (content render reply).length < 2 ^ 32 ∧ left = leftover (content render reply) := by
  rw [received_payload]
  constructor
  · intro h
    obtain ⟨⟨body, rest⟩, hdecode, hresponse⟩ := Option.map_eq_some_iff.mp h
    cases hresponse
    have hlen : (content render reply).length < 2 ^ 32 := by
      by_contra hlong
      exact decode_payload_long (Nat.le_of_not_lt hlong) hdecode
    rw [decode_payload hlen] at hdecode
    cases hdecode
    exact ⟨hlen, rfl⟩
  · rintro ⟨hlen, rfl⟩
    rw [decode_payload hlen]
    rfl

end ReplyDecoding
