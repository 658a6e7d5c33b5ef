import PoolFrontend.Chunked
import PoolFrontend.Router

/-!
# The bytes of a reply

A stream is the bytes written so far. The size of the only chunk is written as a
placeholder and patched when the body is complete.
-/
namespace ReplyFraming

open Chunked
open Router (bytes)
open Server (Body Reply)

abbrev Stream := List UInt8

def write (stream : Stream) (data : List UInt8) : Stream := stream ++ data

/-- `memcpy` into the stream. -/
def patch (stream : Stream) (offset : Nat) (data : List UInt8) : Stream :=
  stream.take offset ++ data ++ stream.drop (offset + data.length)

def reply200 (stream : Stream) : Stream :=
  write stream
    (bytes "HTTP/1.1 200 OK\r\nServer: bcnode\r\nTransfer-Encoding: chunked\r\n\r\n")

/-- The offset of the placeholder is kept. -/
def startChunk (stream : Stream) : Stream × Nat :=
  (write stream (bytes "00000000\r\n"), stream.length)

/-- The array holds the literal with its terminating zero. -/
def finishData : List UInt8 := bytes "\r\n0\r\n\r\n" ++ [0]

/-- `%08x` of the size cast to 32 bits. -/
def chunkSize (stream : Stream) (offset : Nat) : List UInt8 :=
  hexFixed 8 ((stream.length - offset - 10) % 2 ^ 32)

def finishChunk (stream : Stream) (offset : Nat) : Stream :=
  write (patch stream offset (chunkSize stream offset)) finishData

/-- `startChunk`, the body, `finishChunk`. -/
def chunked (stream : Stream) (body : List UInt8) : Stream :=
  let (stream, offset) := startChunk stream
  finishChunk (write stream body) offset

def header404 : List UInt8 :=
  bytes "HTTP/1.1 404 Not Found\r\nServer: bcnode\r\nTransfer-Encoding: chunked\r\n\r\n"

def html404 : List UInt8 :=
  bytes ("<html><head><title>Not Found</title></head>" ++
    "<body><h1>404 Not Found</h1></body></html>")

def reply404 : Stream := chunked (write [] header404) html404

/-- The bytes queued for a reply; `render` is the JSON writer. -/
def queued (render : Json.Value → List UInt8) : Reply → Stream
  | .reply200 (.json value) => chunked (reply200 []) (render value)
  | .reply200 (.text text) => chunked (reply200 []) text.toUTF8.toList
  | .reply200 (.raw data) => chunked (reply200 []) data
  | .reply404 => reply404

/-- What follows the header. -/
def payload (body : List UInt8) : List UInt8 :=
  hexFixed 8 (body.length % 2 ^ 32) ++ [cr, lf] ++ body ++ finishData

theorem patch_append (stream old data rest : List UInt8) (h : old.length = data.length) :
    patch (stream ++ old ++ rest) stream.length data = stream ++ data ++ rest := by
  simp [patch, ← h]

/-- The layout does not depend on what was written before the chunk. -/
theorem chunked_payload (stream : Stream) (body : List UInt8) :
    chunked stream body = stream ++ payload body := by
  have hzeros : bytes "00000000\r\n" = bytes "00000000" ++ [cr, lf] := by decide
  have hten : (bytes "00000000\r\n").length = 10 := by decide
  have hsize : (stream ++ bytes "00000000\r\n" ++ body).length - stream.length - 10 =
      body.length := by
    simp only [List.length_append, hten]
    omega
  have hold : (bytes "00000000").length = (hexFixed 8 (body.length % 2 ^ 32)).length := by
    rw [hexFixed_length]
    decide
  have hstream : stream ++ bytes "00000000\r\n" ++ body =
      stream ++ bytes "00000000" ++ ([cr, lf] ++ body) := by
    rw [hzeros]
    simp only [List.append_assoc]
  calc chunked stream body
      = patch (stream ++ bytes "00000000\r\n" ++ body) stream.length
          (hexFixed 8 (body.length % 2 ^ 32)) ++ finishData := by
        rw [← hsize]
        rfl
    _ = stream ++ hexFixed 8 (body.length % 2 ^ 32) ++ ([cr, lf] ++ body) ++ finishData := by
        rw [hstream, patch_append stream _ _ _ hold]
    _ = stream ++ payload body := by simp only [payload, List.append_assoc]

/-- What follows the header of a reply, found by the decoder of the client. -/
def decoded (header body : List UInt8) : Option (List UInt8 × List UInt8) :=
  decode ((chunked header body).drop header.length)

theorem decoded_payload (header body : List UInt8) :
    decoded header body = decode (payload body) := by
  rw [decoded, chunked_payload, List.drop_left]

/-- Every reply is a header and one payload. -/
theorem queued_payload (render : Json.Value → List UInt8) (reply : Reply) :
    ∃ header body, queued render reply = header ++ payload body := by
  cases reply with
  | reply200 body =>
    cases body with
    | json value => exact ⟨_, _, chunked_payload (reply200 []) (render value)⟩
    | text text => exact ⟨_, _, chunked_payload (reply200 []) text.toUTF8.toList⟩
    | raw data => exact ⟨_, _, chunked_payload (reply200 []) data⟩
  | reply404 => exact ⟨_, _, chunked_payload (write [] header404) html404⟩

theorem payload_length (body : List UInt8) :
    (payload body).length = body.length + 16 + 2 := by
  simp [payload, hexFixed_length, finishData, show (bytes "\r\n0\r\n\r\n").length = 7 by decide]
  omega

theorem finishData_eq : finishData = cr :: lf :: 48 :: cr :: lf :: cr :: lf :: [0] := by decide

/-- A body that is not empty is recovered, and the terminating zero is left over. -/
theorem decoded_nonempty (header : List UInt8) {body : List UInt8} (hne : body ≠ [])
    (hlen : body.length < 2 ^ 32) : decoded header body = some (body, [0]) := by
  have hsize : ∀ tail, readSize (hexFixed 8 body.length ++ cr :: lf :: tail) =
      some (body.length, tail) := fun tail => readSize_hexFixed 7 _ (by omega) tail
  have hlast : ∀ tail, readSize ([48] ++ cr :: lf :: tail) = some (0, tail) := by
    intro tail
    simp [readSize, readHex, show hexValue 48 = some 0 by decide, show hexValue cr = none by decide,
      readCrlf_crlf]
  have hpayload : payload body = hexFixed 8 body.length ++ cr :: lf ::
      (body ++ cr :: lf :: ([48] ++ cr :: lf :: cr :: lf :: [0])) := by
    rw [payload, Nat.mod_eq_of_lt hlen, finishData_eq]
    simp
  have hfuel : (payload body).length = body.length + 16 + 1 + 1 := payload_length body
  rw [decoded_payload, decode, hfuel, hpayload, decodeFrom_chunk _ hsize hne,
    decodeFrom_last _ hlast]
  simp

/-- An empty body ends the message at its own size line; the terminator is left over. -/
theorem decoded_empty (header : List UInt8) :
    decoded header [] = some ([], [48, cr, lf, cr, lf, 0]) := by
  rw [decoded_payload]
  decide

/-- No reply is exactly one message: a message ends with a line feed, the bytes queued
with a zero. -/
theorem never_exactly_one_message (header body : List UInt8) :
    decoded header body ≠ some (body, []) := by
  intro h
  rw [decoded_payload] at h
  obtain ⟨before, hbefore⟩ := decodeFrom_ends h
  have hlast : (payload body).getLast? = some 0 := by
    rw [payload, finishData, ← List.append_assoc, List.getLast?_append]
    rfl
  rw [hbefore] at hlast
  simp [lf] at hlast

/-- The reply of `replyWithStatus` to a client that decodes it. -/
theorem status_reply_leftover : ¬ ∀ header body : List UInt8, body.length < 2 ^ 32 →
    decoded header body = some (body, []) := by
  intro h
  have hok := h (reply200 []) (bytes "\x7b\"status\":\"ok\"\x7d") (by decide)
  rw [decoded_nonempty _ (by decide) (by decide)] at hok
  simp at hok

end ReplyFraming
