import PoolFrontend.ConnectionRuns

/-!
# The window of a read

The size of a window is the bytes read and the size of the tail kept before. The tail is
kept by a parse that needs more data, and its size is never cleared: the read after a reply
starts at the buffer's beginning and still counts it.
-/
namespace ReadWindow

open CallbackProgram CallbackRuns CallbackActivation Json
open Server hiding aioWrite
open Router Routing Connection Connection.PoolHttpConnection ConnectionRuns

variable (parse : List UInt8 → Option Value) (server : PoolHttpServer)

/-- The window lies in the buffer, and holds what was left and what was delivered. -/
def Exact (window : Window) : Prop :=
  window.size ≤ bufferSize ∧ window.bytes = window.unconsumed ++ window.delivered

/-- The bytes read were stored behind the tail the size counts, and a tail that is copied
does not overlap its copy in part. -/
def Fresh (conn : PoolHttpConnection) : Event → Prop
  | .readDone a =>
    (∀ read ∈ conn.socket.reads.head?, read.offset = conn.oldDataSize) ∧
      (a.outcome.result = .needMoreData →
        a.data.length + conn.oldDataSize = a.outcome.remaining ∨
          2 * a.outcome.remaining ≤ a.data.length + conn.oldDataSize)
  | _ => True

/-- The invariant: on an object that is still there, a read that starts behind the tail finds
the tail in front of it; any other read, or no read, finds that no tail was left. -/
structure Ready (conn : PoolHttpConnection) : Prop where
  single : Single conn
  exact : ∀ window ∈ conn.windows, Exact window
  reading : conn.socket.deleted = false → ∀ read ∈ conn.socket.reads,
    read.offset + read.size = bufferSize ∧ conn.unconsumed =
      if read.offset = conn.oldDataSize then conn.buffer.val.take conn.oldDataSize else []
  idle : conn.socket.deleted = false → conn.socket.reads = [] → conn.unconsumed = []

theorem ready_run (buffer : Buffer) : Ready (run buffer) := by
  refine ⟨single_run buffer, ?_, ?_, ?_⟩
  · simp [run, aioRead, calling]
  · intro _ read hread
    simp only [run, aioRead_socket_reads] at hread
    simp_all [run, aioRead, calling]
  · simp [run, aioRead, calling]

/-- The window that a parse adds. -/
def parsedWindow (self : PoolHttpConnection) (a : Arrival) : Window :=
  ⟨a.data.length + self.oldDataSize, self.window a.data.length, self.unconsumed, a.data⟩

theorem mem_parsed {self : PoolHttpConnection} {a : Arrival} {w : Window} :
    w ∈ (self.parsed parse a).windows ↔ w ∈ self.windows ∨ w = parsedWindow self a := by
  simp [parsed, parsedWindow]

/-- A read behind the tail makes an exact window. -/
theorem window_received {self : PoolHttpConnection} (h : Ready self) {read : Read}
    {reads : List Read} {data : List UInt8} (hread : self.socket.reads = read :: reads)
    (hpresent : self.socket.deleted = false) (hoffset : read.offset = self.oldDataSize)
    (hfits : data.length ≤ read.size) :
    data.length + self.oldDataSize ≤ bufferSize ∧
      (self.received read data).window data.length = self.unconsumed ++ data := by
  obtain ⟨hend, htail⟩ := h.reading hpresent read (by simp [hread])
  have hsize : data.length + self.oldDataSize ≤ bufferSize := by omega
  rw [if_pos hoffset] at htail
  refine ⟨hsize, ?_⟩
  rw [window, received_buffer, received_oldDataSize, hoffset, htail]
  exact self.buffer.take_store (by omega)

/-- A closed connection is done with its windows. -/
theorem ready_close {self : PoolHttpConnection} (hsingle : Single self)
    (hexact : ∀ window ∈ self.windows, Exact window) : Ready self.close := by
  have hdeleted : self.close.socket.deleted = true := by
    rw [close]
    split
    · rfl
    · rename_i hclosed
      by_contra hopen
      exact hclosed (hsingle.closed (by simpa using hopen))
  refine ⟨single_close hsingle, ?_, by simp [hdeleted], by simp [hdeleted]⟩
  rw [close]
  split
  · exact hexact
  · exact hexact

theorem ready_read {self next : PoolHttpConnection} {a : Arrival} (h : Ready self)
    (hfresh : Fresh self (.readDone a)) (hstep : Step parse server self (.readDone a) next) :
    Ready next := by
  have hsingle := single_step parse server h.single hstep
  cases hstep with
  | @readDone read reads _ pending present arrives =>
    obtain ⟨rfl, hwrites, hcallbacks⟩ := single_read h.single pending
    obtain ⟨hoffset, hcopy⟩ := hfresh
    obtain ⟨hsize, hwindow⟩ := window_received h pending present
      (hoffset read (by simp [pending])) arrives.fits
    have hexact : ∀ w ∈ ((self.received read a.data).parsed parse a).windows, Exact w := by
      intro w hw
      rcases (mem_parsed parse).mp hw with hold | rfl
      · exact h.exact w hold
      · exact ⟨hsize, hwindow⟩
    have hleft := delivery_left parse server arrives.lawful arrives.executes
    have hreads : (self.received read a.data).socket.reads = [] := by simp [pending]
    have hparsed := parsed_single parse (self.received read a.data) hreads hwrites
      hcallbacks h.single.closed hleft
    rw [onRead] at hsingle ⊢
    cases hdeclined : declines parse self.context a.outcome.components with
    | true => simpa [hdeclined, afterParse] using ready_close hparsed hexact
    | false =>
      simp only [received_context, hdeclined, Bool.false_eq_true, if_false] at hsingle ⊢
      cases hresult : a.outcome.result with
      | error | cancelled => exact ready_close hparsed hexact
      | ok =>
        rw [hresult] at hsingle
        refine ⟨hsingle, hexact, ?_, fun _ _ => rfl⟩
        simp [afterParse, parsed, pending]
      | needMoreData =>
        rw [hresult] at hsingle
        have hlength : ((self.received read a.data).window a.data.length).length =
            a.data.length + self.oldDataSize := by
          simp [window, (self.buffer.store read.offset a.data).property, hsize]
        have hremaining := arrives.lawful.remaining
        have hcopied := arrives.copied.2 (by rw [hlength]; exact hcopy hresult)
        refine ⟨hsingle, hexact, ?_, by simp [afterParse]⟩
        intro _ next hnext
        have hnext : next = ⟨a.outcome.remaining,
            (2 ^ 64 + bufferSize - a.outcome.remaining) % 2 ^ 64⟩ := by
          simpa [afterParse, parsed, pending] using hnext
        subst hnext
        have hfits : a.outcome.remaining ≤ bufferSize := by omega
        have hafter := size_after_tail hfits
        refine ⟨by simp only; omega, ?_⟩
        calc
          tail _ a.outcome.remaining = a.copied := hcopied.symm
          _ = _ := (take_store_tail _ arrives.copied.1 hfits).symm
          _ = _ := (if_pos rfl).symm

theorem ready_step {self next : PoolHttpConnection} {e : Event} (h : Ready self)
    (hfresh : Fresh self e) (hstep : Step parse server self e next) : Ready next := by
  have hsingle := single_step parse server h.single hstep
  cases hstep with
  | readDone pending present arrives =>
    exact ready_read parse server h hfresh (.readDone pending present arrives)
  | @readFailed read reads status pending failed =>
    obtain ⟨rfl, hwrites, hcallbacks⟩ := single_read h.single pending
    exact ready_close ⟨by simp [hwrites, hcallbacks], h.single.answering, h.single.closed⟩ h.exact
  | @written reply writes status pending cancelled =>
    obtain ⟨rfl, hreads, hcallbacks⟩ := single_write h.single pending
    refine ⟨hsingle, h.exact, ?_, by simp [onWrite]⟩
    intro hpresent next hnext
    have hnext : next = ⟨0, bufferSize⟩ := by
      simpa [onWrite, socketShutdown, hreads] using hnext
    subst hnext
    have hidle : self.unconsumed = [] := h.idle hpresent hreads
    refine ⟨by simp, ?_⟩
    show self.unconsumed =
      if 0 = self.oldDataSize then self.buffer.val.take self.oldDataSize else []
    split
    · rename_i htail
      rw [hidle, ← htail, List.take_zero]
    · exact hidle
  | @answered callback before after callbacks replies waiting x executes =>
    obtain ⟨rfl, rfl, hreads, hwrites⟩ := single_callback h.single waiting
    exact ⟨hsingle, by simpa using h.exact, by simp [hreads],
      by simpa [hreads] using fun hpresent => h.idle hpresent hreads⟩

/-- A read that starts in front of where the stored tail ends makes a window that is not
exact: the window counts bytes that nobody left. -/
theorem stale_window {self next : PoolHttpConnection} {a : Arrival} (h : Ready self)
    (hstep : Step parse server self (.readDone a) next)
    (hstale : ∀ read ∈ self.socket.reads, read.offset < self.oldDataSize) :
    ∃ w ∈ next.windows, ¬ Exact w := by
  cases hstep with
  | @readDone read reads _ pending present arrives =>
    have hoffset := hstale read (by simp [pending])
    obtain ⟨hend, htail⟩ := h.reading present read (by simp [pending])
    rw [if_neg (by omega)] at htail
    have hwindow : parsedWindow (self.received read a.data) a ∈
        ((self.received read a.data).parsed parse a).windows := (mem_parsed parse).mpr (.inr rfl)
    refine ⟨_, by simpa [onRead] using hwindow, ?_⟩
    rintro ⟨hsize, hbytes⟩
    have hbuffer := (self.buffer.store read.offset a.data).property
    have hlength := congrArg List.length hbytes
    simp only [parsedWindow, window, received_buffer, received_oldDataSize, received_unconsumed,
      htail, List.length_take, hbuffer, List.nil_append] at hlength hsize
    omega

theorem ready_of_run {self last : PoolHttpConnection}
    {steps : List (PoolHttpConnection × Event)} (h : Run parse server self steps last)
    (hself : Ready self) (hfresh : ∀ step ∈ steps, Fresh step.1 step.2) : Ready last :=
  run_keeps Ready Fresh
    (fun _ _ _ hmid hevent hstep => ready_step parse server hmid hevent hstep) h hself hfresh

/-- The head of a request for a function up to its last byte. -/
def openHead : Arrival where
  data := bytes "POST /api/backendQueryCoins HTTP/1.1\r\nContent-Length: 1\r\n\r"
  outcome := ⟨[.method .hmPost, .uriPathElement (bytes "api"),
    .uriPathElement (bytes "backendQueryCoins"), .other, .other], .needMoreData, 1⟩
  copied := bytes "\r"
  replies := []
  callbacks := []

/-- The last byte of the head and a body that is no JSON text. -/
def headAndBody : Arrival where
  data := bytes "\nx"
  outcome := ⟨[.dataLast (bytes "x")], .ok, 0⟩
  copied := []
  replies := [statusReply "invalid_json"]
  callbacks := []

/-- A request in two reads: the first leaves a tail of one byte, and the second ends it. -/
theorem split_request (buffer : Buffer) :
    ∃ steps conn, Run parseEmpty emptyServer (run buffer) steps conn ∧
      (∀ step ∈ steps, Fresh step.1 step.2) ∧ conn.oldDataSize = 1 ∧
      conn.socket = ⟨[], [statusReply "invalid_json"], false⟩ ∧
      conn.windows.map Window.size = [58, 3] := by
  let mid := ((run buffer).received ⟨0, bufferSize⟩ openHead.data).onRead parseEmpty openHead
  have hwindow : ((run buffer).received ⟨0, bufferSize⟩ openHead.data).window
      openHead.data.length = openHead.data := by
    have hfits : 0 + openHead.data.length ≤ bufferSize := by decide
    exact buffer.take_store hfits
  have hhead : Arrives parseEmpty emptyServer (run buffer) ⟨0, bufferSize⟩ openHead := by
    refine ⟨by decide, by decide, ?_, ?_, .nil⟩
    · rw [hwindow]
      exact ⟨by decide, by decide, by simp [openHead]⟩
    · rw [hwindow]
      exact ⟨by decide, fun _ => by decide⟩
  have hmid : mid.socket = ⟨[⟨1, 65535⟩], [], false⟩ := by
    have hsize : (2 ^ 64 + bufferSize - 1) % 2 ^ 64 = 65535 := by decide
    rw [← hsize]
    rfl
  have hdelivered : (deliver parseEmpty mid.context headAndBody.outcome.components).2 =
      [.replyWithStatus "invalid_json"] := rfl
  have hbody : Arrives parseEmpty emptyServer mid ⟨1, 65535⟩ headAndBody := by
    refine ⟨by decide, by decide, lawful_ends [] _ _ (by simp), copied_nothing _, ?_⟩
    rw [hdelivered]
    exact executesAll_singleton.mpr (.write _ .done)
  have hfirst : Fresh (run buffer) (.readDone openHead) := by
    refine ⟨?_, fun _ => .inr (show 2 * 1 ≤ 58 + 0 by decide)⟩
    intro read hread
    cases hread
    rfl
  have hsecond : Fresh mid (.readDone headAndBody) := by
    refine ⟨?_, fun hempty => absurd hempty (by decide)⟩
    intro read hread
    rw [hmid] at hread
    cases hread
    rfl
  have hrun := ((Run.nil (run buffer)).snoc (.readDone rfl rfl hhead)).snoc
    (.readDone (by rw [hmid]) (by rw [hmid]) hbody)
  refine ⟨_, _, hrun, ?_, rfl, rfl, rfl⟩
  intro step hstep
  simp only [List.nil_append, List.mem_append, List.mem_singleton] at hstep
  rcases hstep with rfl | rfl
  · exact hfirst
  · exact hsecond

/-- While every read is stored behind the tail its window counts, every window is exact. -/
theorem windows_exact {buffer : Buffer} {steps : List (PoolHttpConnection × Event)}
    {last : PoolHttpConnection} (h : Run parse server (run buffer) steps last)
    (hfresh : ∀ step ∈ steps, Fresh step.1 step.2) : ∀ window ∈ last.windows, Exact window :=
  (ready_of_run parse server h (ready_run buffer) hfresh).exact

theorem windows_exact_split : ∃ steps last,
    Run parseEmpty emptyServer (run ⟨.replicate bufferSize 0, by simp⟩) steps last ∧
      last.windows.map Window.size = [58, 3] ∧ ∀ window ∈ last.windows, Exact window := by
  obtain ⟨steps, last, hrun, hfresh, -, -, hsizes⟩ :=
    split_request ⟨.replicate bufferSize 0, by simp⟩
  exact ⟨steps, last, hrun, hsizes, windows_exact _ _ hrun hfresh⟩

/-- After the reply one byte is read, and two are parsed. -/
theorem windows_stale :
    ¬ ∀ (parse : List UInt8 → Option Value) (server : PoolHttpServer) (buffer : Buffer)
      (steps : List (PoolHttpConnection × Event)) (last : PoolHttpConnection),
      Run parse server (run buffer) steps last → ∀ window ∈ last.windows, Exact window := by
  intro h
  obtain ⟨steps, conn, hrun, hfresh, htail, hsocket, -⟩ :=
    split_request ⟨.replicate bufferSize 0, by simp⟩
  let a : Arrival := ⟨bytes "P", ⟨[], .error, 0⟩, [], [], []⟩
  let reading := { conn with socket := { conn.socket with writes := [] } }.onWrite
  have hready := ready_of_run _ _ hrun (ready_run _) hfresh
  have hwritten : Step parseEmpty emptyServer conn (.written .aosSuccess) reading :=
    .written (by rw [hsocket]) (by simp [hsocket])
  have hreading : reading.socket = ⟨[⟨0, bufferSize⟩], [], false⟩ := by
    simp only [reading, onWrite, socketShutdown, hsocket]
    rfl
  have harrives : Arrives parseEmpty emptyServer reading ⟨0, bufferSize⟩ a :=
    ⟨by decide, by decide, ⟨Nat.zero_le _, by decide, by simp [a]⟩, copied_nothing _, .nil⟩
  have hread := Step.readDone (by rw [hreading]) (by rw [hreading]) harrives
  have hfreshWritten : Fresh conn (.written .aosSuccess) := trivial
  have hstale : ∀ read ∈ reading.socket.reads, read.offset < reading.oldDataSize := by
    intro read hmem
    rw [hreading] at hmem
    rw [List.mem_singleton.mp hmem]
    show 0 < conn.oldDataSize
    omega
  obtain ⟨w, hw, hinexact⟩ :=
    stale_window _ _ (ready_step _ _ hready hfreshWritten hwritten) hread hstale
  exact hinexact (h _ _ _ _ _ ((hrun.snoc hwritten).snoc hread) w hw)

end ReadWindow
