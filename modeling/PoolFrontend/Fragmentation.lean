import PoolFrontend.ConnectionRuns
import PoolFrontend.Resumption

/-!
# How a request is cut into reads

The request parser is a parameter; it is resumed on the tail it left and the bytes that came
since. Its components count up to how the body is cut into data components. A connection
that receives a request read by read delivers what it would deliver of one read.
-/
namespace Fragmentation

open CallbackActivation Json Resumption
open Server hiding aioWrite
open Router Connection Connection.PoolHttpConnection ConnectionRuns

/-- The parser as long as no component is declined; its state is what it keeps between two
windows. -/
structure RequestParser where
  State : Type
  initial : State
  run : State → List UInt8 → State × Outcome

/-- A component with its data cut into bytes. -/
def pieces : Component → List Component
  | .data data => data.map fun b => .data [b]
  | .dataLast data => (data.map fun b => .data [b]) ++ [.dataLast []]
  | .other => []
  | .method m => [.method m]
  | .uriPathElement data => [.uriPathElement data]

def RequestParser.reader (parser : RequestParser) : Reader UInt8 Component where
  State := parser.State
  run state window :=
    let (next, outcome) := parser.run state window
    ⟨next, outcome.components.flatMap pieces, outcome.result = .needMoreData,
      tail window outcome.remaining⟩

/-- The parser consumes a prefix of each window, and may be resumed. -/
structure RequestParser.Lawful (parser : RequestParser) : Prop where
  remaining : ∀ state window, (parser.run state window).2.remaining ≤ window.length
  resumable : parser.reader.Resumable

section Deliver

variable (parse : List UInt8 → Option Value)

theorem deliver_data (data : List UInt8) (rest : List Component) (context : Context) :
    deliver parse context ((data.map fun b => .data [b]) ++ rest) =
      deliver parse { context with request := context.request ++ data } rest := by
  induction data generalizing context with
  | nil => simp
  | cons b data ih =>
    simp only [List.map_cons, List.cons_append, deliver, onParse, if_true, ih]
    simp

theorem deliver_pieces (c : Component) (rest : List Component) (context : Context) :
    deliver parse context (pieces c ++ rest) = deliver parse context (c :: rest) := by
  cases c with
  | method m | uriPathElement data => rfl
  | other => simp [pieces, deliver, onParse]
  | data data => simp [pieces, deliver_data, deliver, onParse]
  | dataLast data =>
    have hlast : onParse parse { context with request := context.request ++ data } (.dataLast []) =
        onParse parse context (.dataLast data) := by
      simp [onParse]
    rw [pieces, List.append_assoc, deliver_data, List.singleton_append, deliver, deliver, hlast]

/-- Cutting the data of the components changes nothing. -/
theorem deliver_flatMap_pieces (cs rest : List Component) (context : Context) :
    deliver parse context (cs.flatMap pieces ++ rest) = deliver parse context (cs ++ rest) := by
  induction cs generalizing context with
  | nil => rfl
  | cons c cs ih =>
    rw [List.flatMap_cons, List.append_assoc, deliver_pieces, List.cons_append]
    simp only [deliver, ih]

end Deliver

variable (parser : RequestParser) (parse : List UInt8 → Option Value)

/-- The connection receives these reads one after the other, whatever the handlers leave; the
tail is moved. Without a pending read the rest stays unread. -/
inductive Receives : parser.State → PoolHttpConnection → List (List UInt8) →
    PoolHttpConnection → Prop
  | nil (state : parser.State) (self : PoolHttpConnection) : Receives state self [] self
  | unread (state : parser.State) {self : PoolHttpConnection} (chunks : List (List UInt8)) :
      self.socket.reads = [] → Receives state self chunks self
  | read {state : parser.State} {self last : PoolHttpConnection} {read : Read}
      {reads : List Read} {chunk : List UInt8} {chunks : List (List UInt8)} {a : Arrival}
      (pending : self.socket.reads = read :: reads) (some : 1 ≤ chunk.length)
      (fits : chunk.length ≤ read.size) (data : a.data = chunk)
      (outcome : a.outcome =
        (parser.run state ((self.received read chunk).window chunk.length)).2)
      (moved : a.copied = tail ((self.received read chunk).window chunk.length)
        a.outcome.remaining) :
      Receives (parser.run state ((self.received read chunk).window chunk.length)).1
        ((self.received read chunk).onRead parse a) chunks last →
      Receives state self (chunk :: chunks) last

/-- The connection waits for the bytes that follow a tail. -/
structure Waiting (conn : PoolHttpConnection) (rest : List UInt8) : Prop where
  reads : conn.socket.reads = [⟨rest.length, bufferSize - rest.length⟩]
  oldDataSize : conn.oldDataSize = rest.length
  kept : conn.buffer.val.take rest.length = rest
  fits : rest.length ≤ bufferSize

theorem waiting_run (buffer : Buffer) : Waiting (run buffer) [] :=
  ⟨rfl, rfl, List.take_zero, Nat.zero_le _⟩

/-- The window of the next read is the tail and the bytes read. -/
theorem waiting_window {self : PoolHttpConnection} {rest chunk : List UInt8} {read : Read}
    {reads : List Read} (h : Waiting self rest) (hread : self.socket.reads = read :: reads)
    (hfits : chunk.length ≤ read.size) :
    reads = [] ∧ rest.length + chunk.length ≤ bufferSize ∧
      (self.received read chunk).window chunk.length = rest ++ chunk := by
  rw [h.reads] at hread
  cases hread
  have hrest := h.fits
  have hsize : rest.length + chunk.length ≤ bufferSize := by
    simp only at hfits
    omega
  refine ⟨rfl, hsize, ?_⟩
  rw [window, received_buffer, received_oldDataSize, h.oldDataSize, self.buffer.take_store hsize,
    h.kept]

theorem receives_unread {state : parser.State} {self last : PoolHttpConnection}
    {chunks : List (List UInt8)} (hreads : self.socket.reads = [])
    (h : Receives parser parse state self chunks last) : last = self := by
  cases h with
  | nil | unread => rfl
  | read pending => rw [hreads] at pending; cases pending

theorem onRead_delivers (self : PoolHttpConnection) (a : Arrival) :
    (self.onRead parse a).context = (deliver parse self.context a.outcome.components).1 ∧
      (self.onRead parse a).actions =
        self.actions ++ (deliver parse self.context a.outcome.components).2 := by
  simp [onRead, parsed]

/-- Without a request for more data nothing is read any more. -/
theorem onRead_ends {self : PoolHttpConnection} {a : Arrival} (hreads : self.socket.reads = [])
    (hend : declines parse self.context a.outcome.components = true ∨
      a.outcome.result ≠ .needMoreData) : (self.onRead parse a).socket.reads = [] := by
  have hparsed : (self.parsed parse a).socket.reads = [] := by simpa [parsed] using hreads
  rw [onRead]
  cases hdeclined : declines parse self.context a.outcome.components with
  | true => simpa [afterParse] using hparsed
  | false =>
    cases hresult : a.outcome.result with
    | needMoreData => simp [hdeclined, hresult] at hend
    | ok | error | cancelled => simpa [afterParse] using hparsed

/-- After a request for more data the connection waits behind the tail. -/
theorem onRead_waits {self : PoolHttpConnection} {a : Arrival} {seen : List UInt8}
    (hreads : self.socket.reads = [])
    (hdeclined : declines parse self.context a.outcome.components = false)
    (hmore : a.outcome.result = .needMoreData)
    (hwindow : self.window a.data.length = seen) (hsize : seen.length ≤ bufferSize)
    (hremaining : a.outcome.remaining ≤ seen.length)
    (hmoved : a.copied = tail seen a.outcome.remaining) :
    Waiting (self.onRead parse a) (tail seen a.outcome.remaining) := by
  have hlength : (tail seen a.outcome.remaining).length = a.outcome.remaining := by
    rw [tail, List.length_drop]
    omega
  have hfits : a.outcome.remaining ≤ bufferSize := by omega
  have hparsed : (self.parsed parse a).socket.reads = [] := by simpa [parsed] using hreads
  have hkept := take_store_tail (self.parsed parse a).buffer hlength hfits
  rw [onRead]
  simp only [hdeclined, Bool.false_eq_true, if_false, hmore, hwindow, hmoved]
  refine ⟨?_, hlength.symm, ?_, by omega⟩
  · simp only [afterParse, aioRead_socket_reads, calling_socket, hparsed, List.nil_append,
      size_after_tail hfits, hlength]
  · rw [hlength]
    exact hkept

/-- What feeding a chunk delivers, in the parser's own components. -/
theorem deliver_feed {state : parser.State} {rest chunk : List UInt8}
    {chunks : List (List UInt8)} {outcome : Outcome}
    (houtcome : outcome = (parser.run state (rest ++ chunk)).2) (context : Context) :
    deliver parse context (parser.reader.feed state rest (chunk :: chunks)) =
      if outcome.result = .needMoreData then
        deliver parse context (outcome.components ++ parser.reader.feed
          (parser.run state (rest ++ chunk)).1 (tail (rest ++ chunk) outcome.remaining) chunks)
      else deliver parse context outcome.components := by
  subst houtcome
  rw [parser.reader.feed_cons state]
  by_cases hmore : (parser.run state (rest ++ chunk)).2.result = .needMoreData
  · simp only [RequestParser.reader, hmore, decide_true, if_true, deliver_flatMap_pieces]
  · have hwhole := deliver_flatMap_pieces parse (parser.run state (rest ++ chunk)).2.components []
    simp only [List.append_nil] at hwhole
    simp only [RequestParser.reader, hmore, decide_false, Bool.false_eq_true, if_false, hwhole]

/-- The connection delivers what its parser makes of the reads. -/
theorem receives_feed {state : parser.State} {self last : PoolHttpConnection}
    {chunks : List (List UInt8)} {rest : List UInt8} (hparser : parser.Lawful)
    (h : Receives parser parse state self chunks last) (hwaiting : Waiting self rest) :
    last.context = (deliver parse self.context (parser.reader.feed state rest chunks)).1 ∧
      last.actions =
        self.actions ++ (deliver parse self.context (parser.reader.feed state rest chunks)).2 := by
  induction h generalizing rest with
  | nil => simp [Reader.feed, deliver]
  | unread state chunks hreads => simp [hwaiting.reads] at hreads
  | @read state self last read reads chunk chunks a pending hsome fits data outcome moved hrest
      ih =>
    obtain ⟨rfl, hsize, hwindow⟩ := waiting_window hwaiting pending fits
    have hreads : (self.received read chunk).socket.reads = [] := by simp [pending]
    obtain ⟨hcontext, hactions⟩ := onRead_delivers parse (self.received read chunk) a
    rw [received_context] at hcontext hactions
    rw [hwindow] at outcome moved hrest ih
    rw [deliver_feed parser parse outcome, deliver_append]
    by_cases hend : declines parse self.context a.outcome.components = true ∨
        a.outcome.result ≠ .needMoreData
    · have hstop := onRead_ends parse hreads hend
      rw [receives_unread parser parse hstop hrest, hcontext, hactions]
      rcases hend with hdeclined | hresult
      · simp [hdeclined]
      · simp [hresult]
    · obtain ⟨hdeclined, hresult⟩ := not_or.mp hend
      simp only [Bool.not_eq_true, not_not] at hdeclined hresult
      have hremaining : a.outcome.remaining ≤ (rest ++ chunk).length := by
        rw [outcome]
        exact hparser.remaining state (rest ++ chunk)
      have hwaits := onRead_waits parse hreads hdeclined hresult (by rw [data]; exact hwindow)
        (by rw [List.length_append]; exact hsize) hremaining moved
      obtain ⟨hlastContext, hlastActions⟩ := ih hwaits
      rw [hlastContext, hlastActions, hcontext, hactions]
      simp [hresult, hdeclined]

/-- The reads of a run are such reads, as long as the parser and the copy do their part. -/
theorem step_receives {server : PoolHttpServer} {state : parser.State}
    {self next last : PoolHttpConnection} {a : Arrival} {chunks : List (List UInt8)}
    (hstep : Step parse server self (.readDone a) next)
    (hparsed : ∀ read ∈ self.socket.reads.head?, a.outcome =
        (parser.run state ((self.received read a.data).window a.data.length)).2 ∧
      a.copied = tail ((self.received read a.data).window a.data.length) a.outcome.remaining ∧
      Receives parser parse
        (parser.run state ((self.received read a.data).window a.data.length)).1 next chunks last) :
    Receives parser parse state self (a.data :: chunks) last := by
  cases hstep with
  | readDone pending present arrives =>
    have hhead := hparsed _ (by rw [pending]; rfl)
    obtain ⟨houtcome, hmoved, hrest⟩ := hhead
    exact .read pending arrives.some arrives.fits rfl houtcome hmoved hrest

/-- A request that fits the buffer is received in any reads. -/
theorem receives_fitting (hparser : parser.Lawful) {state : parser.State}
    {self : PoolHttpConnection} {rest : List UInt8} {chunks : List (List UInt8)}
    (hwaiting : Waiting self rest) (hsome : ∀ chunk ∈ chunks, chunk ≠ [])
    (hfits : rest.length + chunks.flatten.length ≤ bufferSize) :
    ∃ last, Receives parser parse state self chunks last := by
  induction chunks generalizing state self rest with
  | nil => exact ⟨self, .nil state self⟩
  | cons chunk chunks ih =>
    rw [List.flatten_cons, List.length_append] at hfits
    have hlength : chunk.length ≤ bufferSize - rest.length := by omega
    have hone : 1 ≤ chunk.length := List.length_pos_iff.mpr (hsome chunk (by simp))
    obtain ⟨-, hsize, hwindow⟩ := waiting_window hwaiting hwaiting.reads hlength
    let received := self.received ⟨rest.length, bufferSize - rest.length⟩ chunk
    have hreads : received.socket.reads = [] := by simp [received, hwaiting.reads]
    let outcome := (parser.run state (rest ++ chunk)).2
    let a : Arrival := ⟨chunk, outcome, tail (rest ++ chunk) outcome.remaining, [], []⟩
    let next := received.onRead parse a
    have hnext : ∃ last,
        Receives parser parse (parser.run state (rest ++ chunk)).1 next chunks last := by
      by_cases hend : declines parse self.context a.outcome.components = true ∨
          a.outcome.result ≠ .needMoreData
      · exact ⟨next, .unread _ _ (onRead_ends parse hreads hend)⟩
      · obtain ⟨hdeclined, hresult⟩ := not_or.mp hend
        simp only [Bool.not_eq_true, not_not] at hdeclined hresult
        have hremaining : a.outcome.remaining ≤ (rest ++ chunk).length :=
          hparser.remaining state (rest ++ chunk)
        have hwaits := onRead_waits parse hreads hdeclined hresult hwindow
          (by rw [List.length_append]; exact hsize) hremaining rfl
        refine ih hwaits (fun c hc => hsome c (List.mem_cons_of_mem _ hc)) ?_
        rw [tail, List.length_drop]
        rw [List.length_append] at hremaining ⊢
        omega
    obtain ⟨last, hlast⟩ := hnext
    refine ⟨last, .read (a := a) hwaiting.reads hone hlength rfl ?_ ?_ ?_⟩
    · rw [hwindow]
    · rw [hwindow]
    · rw [hwindow]
      exact hlast

/-- Nothing is received of nothing. -/
theorem receives_nothing {state : parser.State} {self last : PoolHttpConnection}
    {chunks : List (List UInt8)} (h : Receives parser parse state self chunks last)
    (hreads : self.socket.reads ≠ []) (hnone : chunks.flatten = []) : chunks = [] := by
  cases h with
  | nil => rfl
  | unread _ _ hstop => exact absurd hstop hreads
  | read pending hsome => simp_all

section HeadParser

/-- The rest of a body with some bytes missing. -/
def bodyRest (missing : Nat) (window : List UInt8) : Option Nat × Outcome :=
  if missing ≤ window.length then
    (some 0, ⟨[.dataLast (window.take missing)], .ok, window.length - missing⟩)
  else (some (missing - window.length), ⟨[.data window], .needMoreData, 0⟩)

/-- A parser that knows one head, which announces the size of the body. -/
def headParser (head : List UInt8) (components : List Component) (size : Nat) :
    RequestParser where
  State := Option Nat
  initial := none
  run state window :=
    match state with
    | some missing => bodyRest missing window
    | none =>
      if head <+: window then
        let (next, outcome) := bodyRest size (window.drop head.length)
        (next, { outcome with components := components ++ outcome.components })
      else if window <+: head then (none, ⟨[], .needMoreData, window.length⟩)
      else (none, ⟨[], .error, 0⟩)

theorem bodyRest_resumes {missing : Nat} {window : List UInt8} (h : window.length < missing)
    (later : List UInt8) :
    (bodyRest missing (window ++ later)).2.components.flatMap pieces =
      [Component.data window].flatMap pieces ++
        (bodyRest (missing - window.length) later).2.components.flatMap pieces := by
  by_cases hend : missing ≤ (window ++ later).length
  · have hlater : missing - window.length ≤ later.length := by
      rw [List.length_append] at hend
      omega
    have htake : (window ++ later).take missing =
        window ++ later.take (missing - window.length) := by
      rw [List.take_append, List.take_of_length_le (by omega)]
    rw [bodyRest, if_pos hend, bodyRest, if_pos hlater, htake]
    simp [pieces]
  · have hlater : ¬ missing - window.length ≤ later.length := by
      rw [List.length_append] at hend
      omega
    rw [bodyRest, if_neg hend, bodyRest, if_neg hlater]
    simp [pieces]

theorem bodyRest_finishes {missing : Nat} {window : List UInt8} (h : missing ≤ window.length)
    (later : List UInt8) :
    (bodyRest missing (window ++ later)).2.components = (bodyRest missing window).2.components := by
  have hlonger : missing ≤ (window ++ later).length := by
    rw [List.length_append]
    omega
  rw [bodyRest, if_pos hlonger, bodyRest, if_pos h, List.take_append_of_le_length h]

theorem bodyRest_more {missing : Nat} {window : List UInt8} :
    (bodyRest missing window).2.result = .needMoreData ↔ window.length < missing := by
  rw [bodyRest]
  split
  · simp only [reduceCtorEq, false_iff]
    omega
  · simp only [true_iff]
    omega

variable {head : List UInt8} {components : List Component} {size : Nat}

theorem run_head (body : List UInt8) :
    (headParser head components size).run none (head ++ body) = ((bodyRest size body).1,
      { (bodyRest size body).2 with
        components := components ++ (bodyRest size body).2.components }) := by
  simp [headParser]

theorem run_part {window : List UInt8} (h : ¬ head <+: window) (hpart : window <+: head) :
    (headParser head components size).run none window =
      (none, ⟨[], .needMoreData, window.length⟩) := by
  simp [headParser, h, hpart]

theorem run_error {window : List UInt8} (h : ¬ head <+: window) (hpart : ¬ window <+: head) :
    (headParser head components size).run none window = (none, ⟨[], .error, 0⟩) := by
  simp [headParser, h, hpart]

theorem tail_all (window : List UInt8) : tail window window.length = window := by
  simp [PoolHttpConnection.tail]

theorem tail_none (window : List UInt8) : tail window 0 = [] := by
  simp [PoolHttpConnection.tail]

theorem bodyRest_part {missing : Nat} {window : List UInt8} (h : window.length < missing) :
    bodyRest missing window =
      (some (missing - window.length), ⟨[.data window], .needMoreData, 0⟩) := by
  rw [bodyRest, if_neg (by omega)]

theorem headParser_resumable : (headParser head components size).reader.Resumable where
  resumes state window later hmore := by
    have hmore : ((headParser head components size).run state window).2.result = .needMoreData :=
      of_decide_eq_true hmore
    cases state with
    | some missing =>
      have hpart : window.length < missing := bodyRest_more.mp hmore
      have hnext := bodyRest_resumes hpart later
      simpa [RequestParser.reader, headParser, bodyRest_part hpart, tail_none] using hnext
    | none =>
      by_cases hhead : head <+: window
      · obtain ⟨body, rfl⟩ := hhead
        rw [run_head] at hmore
        have hpart : body.length < size := bodyRest_more.mp hmore
        have hnext := bodyRest_resumes hpart later
        simp only [RequestParser.reader, List.append_assoc, run_head, bodyRest_part hpart,
          tail_none, List.nil_append, List.flatMap_append, hnext]
        rfl
      · by_cases hpart : window <+: head
        · simp only [RequestParser.reader, run_part hhead hpart, tail_all]
          rfl
        · rw [run_error hhead hpart] at hmore
          cases hmore
  finishes state window later hmore := by
    have hmore : ((headParser head components size).run state window).2.result ≠ .needMoreData :=
      of_decide_eq_false hmore
    cases state with
    | some missing =>
      have hfull : missing ≤ window.length := Nat.le_of_not_lt fun h => hmore (bodyRest_more.mpr h)
      exact congrArg (List.flatMap pieces) (bodyRest_finishes hfull later)
    | none =>
      by_cases hhead : head <+: window
      · obtain ⟨body, rfl⟩ := hhead
        rw [run_head] at hmore
        have hfull : size ≤ body.length := Nat.le_of_not_lt fun h => hmore (bodyRest_more.mpr h)
        simp only [RequestParser.reader, List.append_assoc, run_head, bodyRest_finishes hfull]
      · by_cases hpart : window <+: head
        · rw [run_part hhead hpart] at hmore
          exact absurd rfl hmore
        · have hhead' : ¬ head <+: window ++ later := by
            intro hlonger
            rcases List.prefix_or_prefix_of_prefix hlonger (List.prefix_append window later) with
              h | h
            · exact hhead h
            · exact hpart h
          have hpart' : ¬ window ++ later <+: head := fun h =>
            hpart ((List.prefix_append window later).trans h)
          simp only [RequestParser.reader, run_error hhead hpart, run_error hhead' hpart']

theorem headParser_lawful : (headParser head components size).Lawful where
  resumable := headParser_resumable
  remaining state window := by
    have hbody : ∀ (missing : Nat) (rest : List UInt8),
        (bodyRest missing rest).2.remaining ≤ rest.length := by
      intro missing rest
      rw [bodyRest]
      split
      · exact Nat.sub_le _ _
      · exact Nat.zero_le _
    cases state with
    | some missing => exact hbody missing window
    | none =>
      by_cases hhead : head <+: window
      · obtain ⟨body, rfl⟩ := hhead
        have hrest := hbody size body
        rw [run_head, List.length_append]
        simp only
        omega
      · by_cases hpart : window <+: head
        · simp [run_part hhead hpart]
        · simp [run_error hhead hpart]

end HeadParser

/-- However a request is cut into reads, a fresh connection ends with the same method,
function and body, and answers it in the same way. -/
theorem fragmentation_independent {cut cut' : List (List UInt8)} {buffer buffer' : Buffer}
    {last last' : PoolHttpConnection} (hparser : parser.Lawful)
    (hsame : cut.flatten = cut'.flatten)
    (h : Receives parser parse parser.initial (run buffer) cut last)
    (h' : Receives parser parse parser.initial (run buffer') cut' last') :
    last.context = last'.context ∧ last.actions = last'.actions := by
  have hfeed : parser.reader.feed parser.initial [] cut =
      parser.reader.feed parser.initial [] cut' := by
    by_cases hnone : cut.flatten = []
    · rw [receives_nothing parser parse h (by simp [run]) hnone,
        receives_nothing parser parse h' (by simp [run]) (hsame ▸ hnone)]
    · have hsome : cut ≠ [] := fun hcut => hnone (by simp [hcut])
      have hsome' : cut' ≠ [] := fun hcut => hnone (by simp [hsame, hcut])
      exact Reader.feed_congr hparser.resumable _ _ hsome hsome' hsame
  obtain ⟨hcontext, hactions⟩ := receives_feed parser parse hparser h (waiting_run buffer)
  obtain ⟨hcontext', hactions'⟩ := receives_feed parser parse hparser h' (waiting_run buffer')
  rw [hcontext, hcontext', hactions, hactions', hfeed]
  exact ⟨rfl, rfl⟩

/-- A login request in two reads, cut before or inside its body. -/
theorem fragmentation_independent_login :
    let head := bytes "POST /api/userLogin HTTP/1.1\r\nContent-Length: 2\r\n\r\n"
    let parser := headParser head
      [.method .hmPost, .uriPathElement (bytes "api"), .uriPathElement (bytes "userLogin")] 2
    let start := run ⟨.replicate bufferSize 0, by simp⟩
    ∃ last last',
      Receives parser (fun _ => some (.object [])) none start [head, bytes "\x7b\x7d"] last ∧
      Receives parser (fun _ => some (.object [])) none start
        [head ++ bytes "\x7b", bytes "\x7d"] last' ∧
      last.context = last'.context ∧ last.actions = last'.actions := by
  intro head parser start
  have hwaiting : Waiting start [] := waiting_run _
  have hcut : ∃ last, Receives parser (fun _ => some (.object [])) none start
      [head, bytes "\x7b\x7d"] last :=
    receives_fitting parser _ headParser_lawful hwaiting (by decide) (by decide)
  have hcut' : ∃ last', Receives parser (fun _ => some (.object [])) none start
      [head ++ bytes "\x7b", bytes "\x7d"] last' :=
    receives_fitting parser _ headParser_lawful hwaiting (by decide) (by decide)
  have hsame : [head, bytes "\x7b\x7d"].flatten =
      [head ++ bytes "\x7b", bytes "\x7d"].flatten := by decide
  obtain ⟨last, h⟩ := hcut
  obtain ⟨last', h'⟩ := hcut'
  exact ⟨last, last', h, h', fragmentation_independent parser _ headParser_lawful hsame h h'⟩

end Fragmentation
