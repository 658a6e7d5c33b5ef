import PoolFrontend.CallbackActivation
import PoolFrontend.Router

/-!
# A connection

A connection lives between events: a read or a write on its socket completes, or a handler
gets an answer from the core. What an event sets off runs to its end. The parser is not part
of this repository: an event says what the parser made of the window. Beside the fields of
the source stand what the socket and `memcpy` were asked for, and the windows that were parsed.
-/
namespace Connection

open CallbackProgram CallbackActivation Json Server Router
open Handler (program)

/-- `sizeof(buffer)` -/
def bufferSize : Nat := 65536

abbrev Buffer := { bytes : List UInt8 // bytes.length = bufferSize }

/-- Bytes stored from an offset on; what lies outside the buffer is not part of it. -/
def Buffer.store (buffer : Buffer) (offset : Nat) (data : List UInt8) : Buffer :=
  ⟨(buffer.val.take offset ++ data ++ buffer.val.drop (offset + data.length)).take bufferSize, by
    have h := buffer.property
    simp only [List.length_take, List.length_append, List.length_drop, h]
    omega⟩

/-- A window from the start of the buffer holds what was there and what was stored. -/
theorem Buffer.take_store (buffer : Buffer) {offset : Nat} {data : List UInt8}
    (h : offset + data.length ≤ bufferSize) :
    (buffer.store offset data).val.take (data.length + offset) =
      buffer.val.take offset ++ data := by
  have hsize := buffer.property
  have hfront : (buffer.val.take offset ++ data).length = data.length + offset := by
    simp only [List.length_append, List.length_take, hsize]
    omega
  rw [Buffer.store, List.take_take, Nat.min_eq_left (by omega), ← hfront, List.take_left']
  rfl

inductive AsyncOpStatus where
  | aosSuccess
  | other : Nat → AsyncOpStatus
  deriving DecidableEq, Repr

structure Read where
  offset : Nat
  size : Nat
  deriving DecidableEq, Repr

/-- The operations whose callbacks have not run yet, the oldest first. -/
structure Socket where
  reads : List Read := []
  writes : List Reply := []
  deleted : Bool := false

inductive SocketCall where
  | aioRead : Read → SocketCall
  | aioWrite : Reply → SocketCall
  | socketShutdown
  | deleteAioObject

inductive ParserResult where
  | ok | needMoreData | error | cancelled
  deriving DecidableEq, Repr

/-- What the parser makes of a window as long as no component is declined. -/
structure Outcome where
  components : List Component
  result : ParserResult
  remaining : Nat

/-- The parser consumes a prefix of the window, and the last data component ends both the
request and the parse. -/
structure Outcome.Lawful (outcome : Outcome) (window : List UInt8) : Prop where
  remaining : outcome.remaining ≤ window.length
  undeclined : outcome.result ≠ .cancelled
  last : ∀ d, .dataLast d ∈ outcome.components → outcome.result = .ok ∧
    ∃ front, outcome.components = front ++ [.dataLast d] ∧ ∀ d', .dataLast d' ∉ front

/-- A window handed to the parser: its size, the bytes of the buffer it covers, and, to
compare them with, what the last parse left and what the latest read delivered. -/
structure Window where
  size : Nat
  bytes : List UInt8
  unconsumed : List UInt8
  delivered : List UInt8
  deriving DecidableEq, Repr

/-- Bytes of the buffer. -/
structure Region where
  start : Nat
  size : Nat
  deriving DecidableEq, Repr

/-- The call of `memcpy` in `onRead`, if any: its source and its target, after a window of
`size` bytes. -/
def memcpyCall (size remaining : Nat) : List (Region × Region) :=
  if remaining ≠ 0 then [(⟨size - remaining, remaining⟩, ⟨0, remaining⟩)] else []

structure PoolHttpConnection where
  buffer : Buffer
  oldDataSize : Nat := 0
  deleted : Nat := 0
  context : Context := {}
  socket : Socket := {}
  callbacks : List (Callback Http) := []
  calls : List (SocketCall × Socket) := []
  windows : List Window := []
  memcpys : List (Region × Region) := []
  actions : List Action := []
  unconsumed : List UInt8 := []

namespace PoolHttpConnection

section Calls

variable (self : PoolHttpConnection)

/-- Record a call with the socket it is made on. -/
@[simps] def calling (call : SocketCall) : PoolHttpConnection :=
  { self with calls := self.calls ++ [(call, self.socket)] }

@[simps] def aioRead (offset size : Nat) : PoolHttpConnection :=
  let self := self.calling (.aioRead ⟨offset, size⟩)
  { self with socket := { self.socket with reads := self.socket.reads ++ [⟨offset, size⟩] } }

@[simps] def aioWrite (reply : Reply) : PoolHttpConnection :=
  let self := self.calling (.aioWrite reply)
  { self with socket := { self.socket with writes := self.socket.writes ++ [reply] } }

def socketShutdown : PoolHttpConnection := self.calling .socketShutdown

/-- Pending operations stay: they are cancelled, and their callbacks still run. -/
@[simps] def deleteAioObject : PoolHttpConnection :=
  let self := self.calling .deleteAioObject
  { self with socket := { self.socket with deleted := true } }

end Calls

def run (buffer : Buffer) : PoolHttpConnection :=
  ({ buffer } : PoolHttpConnection).aioRead 0 bufferSize

def close (self : PoolHttpConnection) : PoolHttpConnection :=
  let closing := { self with deleted := self.deleted + 1 }
  if self.deleted = 0 then closing.deleteAioObject else closing

/-- The status of the write is not looked at. -/
def onWrite (self : PoolHttpConnection) : PoolHttpConnection :=
  self.socketShutdown.aioRead 0 bufferSize

/-- The replies and the callbacks a program left. -/
def leave (self : PoolHttpConnection) (replies : List Reply) (callbacks : List (Callback Http)) :
    PoolHttpConnection :=
  let self := replies.foldl aioWrite self
  { self with callbacks := self.callbacks ++ callbacks }

/-- The window of a read of `bytesRead` bytes. -/
def window (self : PoolHttpConnection) (bytesRead : Nat) : List UInt8 :=
  self.buffer.val.take (bytesRead + self.oldDataSize)

/-- The tail of a window the parser left. -/
def tail (window : List UInt8) (remaining : Nat) : List UInt8 :=
  window.drop (window.length - remaining)

/-- The switch of `onRead`; `copied` is what the copy of the tail left in the buffer. -/
def afterParse (self : PoolHttpConnection) (result : ParserResult) (window : List UInt8)
    (remaining : Nat) (copied : List UInt8) : PoolHttpConnection :=
  match result with
  | .ok => { self with unconsumed := [] }
  | .needMoreData =>
    let self := { self with
      oldDataSize := remaining
      buffer := if remaining ≠ 0 then self.buffer.store 0 copied else self.buffer
      memcpys := self.memcpys ++ memcpyCall window.length remaining
      unconsumed := tail window remaining }
    -- the size is computed in 64 bits
    self.aioRead remaining ((2 ^ 64 + bufferSize - remaining) % 2 ^ 64)
  | .error => self.close
  | .cancelled => self.close

end PoolHttpConnection

/-- The callback of the parser declines a component. -/
def declines (parse : List UInt8 → Option Value) : Context → List Component → Bool
  | _, [] => false
  | context, c :: cs =>
    let parsed := onParse parse context c
    if parsed.proceed then declines parse parsed.context cs else true

/-- What a successful read brings: its bytes, what the parser makes of the window, what the
copy of the tail leaves, and what the handlers leave. -/
structure Arrival where
  data : List UInt8
  outcome : Outcome
  copied : List UInt8
  replies : List Reply
  callbacks : List (Callback Http)

namespace PoolHttpConnection

variable (parse : List UInt8 → Option Value)

/-- The read has put its bytes into the buffer. -/
@[simps] def received (self : PoolHttpConnection) (read : Read) (data : List UInt8) :
    PoolHttpConnection :=
  { self with
    buffer := self.buffer.store read.offset data
    socket := { self.socket with reads := self.socket.reads.tail } }

/-- The parse of a window: its components are delivered and the handlers run. -/
def parsed (self : PoolHttpConnection) (a : Arrival) : PoolHttpConnection :=
  let delivered := deliver parse self.context a.outcome.components
  let window : Window := ⟨a.data.length + self.oldDataSize, self.window a.data.length,
    self.unconsumed, a.data⟩
  { self with
    context := delivered.1
    actions := self.actions ++ delivered.2
    windows := self.windows ++ [window] }.leave a.replies a.callbacks

/-- `onRead` with a successful status. -/
def onRead (self : PoolHttpConnection) (a : Arrival) : PoolHttpConnection :=
  let result := if declines parse self.context a.outcome.components then .cancelled
    else a.outcome.result
  (self.parsed parse a).afterParse result (self.window a.data.length) a.outcome.remaining a.copied

end PoolHttpConnection

/-- `memcpy` to the start of the window, of a tail that starts at a distance from it: bytes
that overlap in part have no defined result. -/
def Copied (window : List UInt8) (remaining : Nat) (copied : List UInt8) : Prop :=
  copied.length = remaining ∧
    (window.length = remaining ∨ 2 * remaining ≤ window.length →
      copied = PoolHttpConnection.tail window remaining)

/-- What a read may bring to a connection. -/
structure Arrives (parse : List UInt8 → Option Value) (server : PoolHttpServer)
    (conn : PoolHttpConnection) (read : Read) (a : Arrival) : Prop where
  some : 1 ≤ a.data.length
  fits : a.data.length ≤ read.size
  lawful : a.outcome.Lawful ((conn.received read a.data).window a.data.length)
  copied : Copied ((conn.received read a.data).window a.data.length) a.outcome.remaining a.copied
  executes : ExecutesAll ((deliver parse conn.context a.outcome.components).2.map fun action =>
    (action.handler server).program) a.replies a.callbacks

inductive Event where
  | readDone : Arrival → Event
  | readFailed : AsyncOpStatus → Event
  | written : AsyncOpStatus → Event
  | answered : Callback Http → Event

open PoolHttpConnection

/-- On a deleted object every operation completes with another status than success. -/
inductive Step (parse : List UInt8 → Option Value) (server : PoolHttpServer) :
    PoolHttpConnection → Event → PoolHttpConnection → Prop
  | readDone {self : PoolHttpConnection} {read : Read} {reads : List Read} {a : Arrival}
      (pending : self.socket.reads = read :: reads) (present : self.socket.deleted = false)
      (arrives : Arrives parse server self read a) :
      Step parse server self (.readDone a) ((self.received read a.data).onRead parse a)
  | readFailed {self : PoolHttpConnection} {read : Read} {reads : List Read}
      {status : AsyncOpStatus} (pending : self.socket.reads = read :: reads)
      (failed : status ≠ .aosSuccess) :
      Step parse server self (.readFailed status)
        { self with socket := { self.socket with reads := reads } }.close
  | written {self : PoolHttpConnection} {reply : Reply} {writes : List Reply}
      {status : AsyncOpStatus} (pending : self.socket.writes = reply :: writes)
      (cancelled : self.socket.deleted = true → status ≠ .aosSuccess) :
      Step parse server self (.written status)
        { self with socket := { self.socket with writes := writes } }.onWrite
  | answered {self : PoolHttpConnection} {callback : Callback Http}
      {before after callbacks : List (Callback Http)} {replies : List Reply}
      (waiting : self.callbacks = before ++ callback :: after) (x : Http.Answer callback.call)
      (executes : Executes (callback.onAnswer x) replies callbacks) :
      Step parse server self (.answered callback)
        ({ self with callbacks := before ++ after }.leave replies callbacks)

/-- A run with the connections its events found. -/
inductive Run (parse : List UInt8 → Option Value) (server : PoolHttpServer) :
    PoolHttpConnection → List (PoolHttpConnection × Event) → PoolHttpConnection → Prop
  | nil (self : PoolHttpConnection) : Run parse server self [] self
  | snoc {self mid last : PoolHttpConnection} {steps : List (PoolHttpConnection × Event)}
      {e : Event} : Run parse server self steps mid → Step parse server mid e last →
      Run parse server self (steps ++ [(mid, e)]) last

/-- The run rule: what the steps of admitted events keep holds at the end of their run. -/
theorem run_keeps {parse : List UInt8 → Option Value} {server : PoolHttpServer}
    (P : PoolHttpConnection → Prop) (admitted : PoolHttpConnection → Event → Prop)
    (hstep : ∀ self e next, P self → admitted self e → Step parse server self e next → P next)
    {self last : PoolHttpConnection} {steps : List (PoolHttpConnection × Event)}
    (h : Run parse server self steps last) (hself : P self)
    (hadmitted : ∀ step ∈ steps, admitted step.1 step.2) : P last := by
  induction h with
  | nil => exact hself
  | snoc _ hlast ih =>
    have hmid := ih fun step hs => hadmitted step (List.mem_append_left _ hs)
    have hevent := hadmitted _ (List.mem_append_right _ (List.mem_singleton_self _))
    exact hstep _ _ _ hmid hevent hlast

end Connection
