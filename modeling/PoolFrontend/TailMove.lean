import PoolFrontend.ReadWindow

/-!
# The move of a tail

After a parse that needs more data the tail of the window is copied to the beginning of the
buffer by `memcpy`, and the rest of the buffer is read into. A tail of more than half the
window overlaps its copy, and a tail as long as the buffer leaves nothing to read into.
-/
namespace TailMove

open CallbackProgram CallbackActivation Json
open Server hiding aioWrite
open Router Routing Connection Connection.PoolHttpConnection ConnectionRuns

def Holds (region : Region) (i : Nat) : Prop :=
  region.start ≤ i ∧ i < region.start + region.size

/-- What `memcpy` asks of its regions: no byte is in both. -/
def Apart (source target : Region) : Prop := ∀ i, Holds source i → ¬ Holds target i

theorem memcpyCall_apart {size remaining : Nat} (h : remaining ≤ size) :
    (∀ call ∈ memcpyCall size remaining, Apart call.1 call.2) ↔ 2 * remaining ≤ size := by
  by_cases hzero : remaining = 0
  · simp [memcpyCall, hzero]
  · simp only [memcpyCall, ne_eq, hzero, not_false_eq_true, if_true, List.mem_singleton,
      forall_eq]
    constructor
    · intro hapart
      -- the first byte of the source
      have hfirst := hapart (size - remaining) ⟨Nat.le_refl _, by simp only; omega⟩
      simp only [Holds, not_and] at hfirst
      omega
    · intro hhalf i hsource htarget
      simp only [Holds] at hsource htarget
      omega

/-- Regions that are apart are copied byte by byte. -/
theorem copied_apart {window copied : List UInt8} {remaining : Nat}
    (h : Copied window remaining copied) (hfits : remaining ≤ window.length)
    (hapart : ∀ call ∈ memcpyCall window.length remaining, Apart call.1 call.2) :
    copied = tail window remaining :=
  h.2 (.inr ((memcpyCall_apart hfits).mp hapart))

variable (parse : List UInt8 → Option Value)

/-- The read behind a tail asks for the rest of the buffer. -/
theorem onRead_asks {self : PoolHttpConnection} {a : Arrival}
    (hundeclined : declines parse self.context a.outcome.components = false)
    (hresult : a.outcome.result = .needMoreData) (hfits : a.outcome.remaining ≤ bufferSize) :
    ∃ socket, (self.onRead parse a).calls.getLast? = some
      (.aioRead ⟨a.outcome.remaining, bufferSize - a.outcome.remaining⟩, socket) := by
  simp only [onRead, hundeclined, Bool.false_eq_true, if_false, hresult, afterParse,
    size_after_tail hfits, aioRead_calls, calling_calls, List.getLast?_concat]
  exact ⟨_, rfl⟩

/-- The calls of `memcpy` a read adds. -/
theorem onRead_memcpys {self : PoolHttpConnection} {a : Arrival}
    (hundeclined : declines parse self.context a.outcome.components = false)
    (hresult : a.outcome.result = .needMoreData)
    (hfits : a.data.length + self.oldDataSize ≤ bufferSize) :
    (self.onRead parse a).memcpys = self.memcpys ++
      memcpyCall (a.data.length + self.oldDataSize) a.outcome.remaining := by
  have hbuffer := self.buffer.property
  have hlength : (self.window a.data.length).length = a.data.length + self.oldDataSize := by
    rw [window, List.length_take, hbuffer, Nat.min_eq_left hfits]
  have hleave : (self.parsed parse a).memcpys = self.memcpys :=
    leave_keeps _ _ _ _ (fun _ _ => rfl) (fun _ _ => rfl)
  simp only [onRead, hundeclined, Bool.false_eq_true, if_false, hresult, afterParse,
    aioRead_memcpys, calling_memcpys, hleave, hlength]

/-- What the primitives ask of the move: the regions of every `memcpy` are apart, and the read
that follows asks for at least one byte. -/
structure Respected (self next : PoolHttpConnection) : Prop where
  apart : ∃ made, next.memcpys = self.memcpys ++ made ∧ ∀ call ∈ made, Apart call.1 call.2
  asks : ∃ read socket, next.calls.getLast? = some (.aioRead read, socket) ∧ 1 ≤ read.size

/-- The move respects the primitives exactly when the tail is at most half the window. -/
theorem moved_iff (self : PoolHttpConnection) (a : Arrival)
    (hundeclined : declines parse self.context a.outcome.components = false)
    (hresult : a.outcome.result = .needMoreData)
    (hsome : 1 ≤ a.data.length + self.oldDataSize)
    (hfits : a.data.length + self.oldDataSize ≤ bufferSize)
    (hremaining : a.outcome.remaining ≤ a.data.length + self.oldDataSize) :
    Respected self (self.onRead parse a) ↔
      2 * a.outcome.remaining ≤ a.data.length + self.oldDataSize := by
  have hmemcpys := onRead_memcpys parse hundeclined hresult hfits
  have hiff := memcpyCall_apart hremaining
  constructor
  · rintro ⟨⟨made, hmade, hapart⟩, -⟩
    have hsame := List.append_cancel_left (hmemcpys.symm.trans hmade)
    exact hiff.mp (hsame ▸ hapart)
  · intro hhalf
    obtain ⟨socket, hcall⟩ := onRead_asks parse hundeclined hresult (Nat.le_trans hremaining hfits)
    constructor
    · exact ⟨_, hmemcpys, hiff.mpr hhalf⟩
    · exact ⟨_, socket, hcall, by simp only; omega⟩

/-- A request line that ends in the next read: all of it is the tail. -/
def unfinishedLine : Arrival where
  data := bytes "POST /api"
  outcome := ⟨[], .needMoreData, 9⟩
  copied := bytes "POST /api"
  replies := []
  callbacks := []

/-- A line and the first bytes of the next. -/
def finishedLine : Arrival where
  data := bytes "POST / HTTP/1.1\r\nHo"
  outcome := ⟨[.method .hmPost], .needMoreData, 2⟩
  copied := bytes "Ho"
  replies := []
  callbacks := []

/-- The connection whose first read brought the bytes. -/
def opened (data : List UInt8) : PoolHttpConnection :=
  (run ⟨.replicate bufferSize 0, by simp⟩).received ⟨0, bufferSize⟩ data

theorem moved_iff_finished :
    Respected (opened finishedLine.data)
      ((opened finishedLine.data).onRead parseEmpty finishedLine) ↔ 2 * 2 ≤ 19 :=
  moved_iff parseEmpty (opened finishedLine.data) finishedLine rfl rfl (by decide)
    (by decide) (by decide)

theorem unfinished_overlaps :
    ¬ ∀ (parse : List UInt8 → Option Value) (self : PoolHttpConnection) (a : Arrival),
      declines parse self.context a.outcome.components = false →
      a.outcome.result = .needMoreData → 1 ≤ a.data.length + self.oldDataSize →
      a.data.length + self.oldDataSize ≤ bufferSize →
      a.outcome.remaining ≤ a.data.length + self.oldDataSize →
      Respected self (self.onRead parse a) := by
  intro h
  obtain ⟨⟨made, hmade, hapart⟩, -⟩ := h parseEmpty (opened unfinishedLine.data) unfinishedLine
    rfl rfl (by decide) (by decide) (by decide)
  have hmemcpys := @onRead_memcpys parseEmpty (opened unfinishedLine.data) unfinishedLine rfl rfl
    (by decide)
  have hsame := List.append_cancel_left (hmemcpys.symm.trans hmade)
  have hcall := hapart (⟨0, 9⟩, ⟨0, 9⟩) (hsame ▸ List.mem_singleton_self _)
  exact hcall 0 ⟨by decide, by decide⟩ ⟨by decide, by decide⟩

end TailMove
