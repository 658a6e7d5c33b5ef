import PoolFrontend.OneAnswer

/-!
# The intervals of the pool luck

The loop compares each interval with the one before and gathers those it has seen. It gets to
the end exactly on positive signed 64-bit integers in strictly increasing order.
-/
namespace LuckIntervals

open CallbackProgram CallbackRuns CallbackTrace
open Json MachineInt Poolcore Server BackendHandlers OneAnswer
open Handler (program)

/-- The value is this signed 64-bit integer. -/
def Is (value : Value) (interval : Int) : Prop := value = .int interval ∧ InInt64 interval

/-- The array holds these integers, and they are positive and strictly increasing. -/
structure Valid (values : List Value) (intervals : List Int) : Prop where
  elements : List.Forall₂ Is values intervals
  positive : ∀ interval ∈ intervals, 0 < interval
  increasing : intervals.Pairwise (· < ·)

/-- The invariant: what is left holds these integers, and they rise from the last one seen. -/
structure Rising (prevInterval : Int) (values : List Value) (intervals : List Int) : Prop where
  elements : List.Forall₂ Is values intervals
  chain : List.IsChain (· < ·) (prevInterval :: intervals)

theorem rising_nil (prevInterval : Int) : Rising prevInterval [] [] :=
  ⟨.nil, .singleton _⟩

theorem rising_cons_iff {prevInterval interval : Int} {value : Value} {rest : List Value}
    {intervals : List Int} : Rising prevInterval (value :: rest) (interval :: intervals) ↔
      Is value interval ∧ prevInterval < interval ∧ Rising interval rest intervals := by
  constructor
  · intro h
    obtain ⟨his, hrest⟩ := List.forall₂_cons.mp h.elements
    obtain ⟨hlt, hchain⟩ := List.isChain_cons_cons.mp h.chain
    exact ⟨his, hlt, hrest, hchain⟩
  · intro h
    obtain ⟨his, hlt, hrest⟩ := h
    exact ⟨.cons his hrest.elements, List.isChain_cons_cons.mpr ⟨hlt, hrest.chain⟩⟩

/-- Adjacent comparisons from zero on order the whole list. -/
theorem rising_zero_iff {values : List Value} {intervals : List Int} :
    Rising 0 values intervals ↔ Valid values intervals := by
  constructor
  · intro h
    have hpairs := List.isChain_iff_pairwise.mp h.chain
    exact ⟨h.elements, fun interval hmem => List.rel_of_pairwise_cons hpairs hmem, hpairs.of_cons⟩
  · intro h
    have hpairs : List.Pairwise (· < ·) (0 :: intervals) :=
      List.pairwise_cons.mpr ⟨h.positive, h.increasing⟩
    exact ⟨h.elements, List.isChain_iff_pairwise.mpr hpairs⟩

theorem isInt64_iff {value : Value} : value.isInt64 = true ↔ ∃ interval, Is value interval := by
  cases value with
  | int i => simp [Value.isInt64, Is, InInt64]
  | null | bool | double | string | array | object => simp [Value.isInt64, Is]

theorem getInt64_is {value : Value} {interval : Int} (h : Is value interval) :
    value.getInt64 = some interval := by
  obtain ⟨rfl, hlow, hhigh⟩ := h
  apply if_pos
  simp only [Bool.and_eq_true, decide_eq_true_eq]
  exact ⟨hlow, hhigh⟩

section Loop

variable {k : Option (List Int) → Program Http}

/-- One round on an integer: it goes on with it, or leaves. -/
theorem luckIntervals_cons {value : Value} {interval : Int} (h : Is value interval)
    (rest : List Value) (prevInterval : Int) (intervals : List Int) :
    luckIntervals (value :: rest) prevInterval intervals k =
      if interval ≤ prevInterval then k none
      else luckIntervals rest interval (intervals ++ [interval]) k := by
  have hint : value.isInt64 = true := isInt64_iff.mpr ⟨interval, h⟩
  simp [luckIntervals, hint, getInt64_is h]

/-- The rising rest is appended to what was gathered. -/
theorem luckIntervals_rising {prevInterval : Int} {values : List Value} {found : List Int}
    (h : Rising prevInterval values found) (intervals : List Int) :
    luckIntervals values prevInterval intervals k = k (some (intervals ++ found)) := by
  induction values generalizing prevInterval found intervals with
  | nil =>
    cases h.elements
    rw [List.append_nil]
    rfl
  | cons value rest ih =>
    cases found with
    | nil => cases h.elements
    | cons interval found =>
      obtain ⟨his, hlt, hrest⟩ := rising_cons_iff.mp h
      rw [luckIntervals_cons his, if_neg (by omega), ih hrest, List.append_assoc]
      rfl

/-- Whatever does not rise to the end is left without a list. -/
theorem luckIntervals_fails {prevInterval : Int} {values : List Value}
    (h : ∀ found, ¬ Rising prevInterval values found) (intervals : List Int) :
    luckIntervals values prevInterval intervals k = k none := by
  induction values generalizing prevInterval intervals with
  | nil => exact absurd (rising_nil prevInterval) (h [])
  | cons value rest ih =>
    cases hint : value.isInt64 with
    | false => simp [luckIntervals, hint]
    | true =>
      obtain ⟨interval, his⟩ := isInt64_iff.mp hint
      rw [luckIntervals_cons his]
      by_cases hle : interval ≤ prevInterval
      · rw [if_pos hle]
      · rw [if_neg hle]
        apply ih
        intro found hrest
        exact h (interval :: found) (rising_cons_iff.mpr ⟨his, by omega, hrest⟩)

end Loop

section Request

variable {σ : Type} (serve : Environment Http σ) (s : σ) (server : PoolHttpServer) (ms : Members)

def trace : List (CallbackTrace.Event Http) :=
  (run serve (onBackendPoolLuck server (.object ms)).program .handler s).1

/-- What follows the loop: the core is asked, or the request is rejected. -/
def afterLoop (backend : PoolBackend) : Option (List Int) → Program Http
  | some intervals => (answerLater (.poolLuck backend.accountingDb intervals) fun result =>
      replyList "luck" (result.map .double)).program
  | none => (replyWithStatus "json_format_error").program

/-- The intervals are validated: the core is asked exactly for valid intervals, with the
integers of the array; otherwise the one reply is the error, and nothing is asked. -/
structure Validated (backend : PoolBackend) (values : List Value) : Prop where
  asked : ∀ c, c ∈ calls (trace serve s server ms) ↔
    ∃ intervals, Valid values intervals ∧ c = .poolLuck backend.accountingDb intervals
  once : (calls (trace serve s server ms)).length ≤ 1
  rejected : (∀ intervals, ¬ Valid values intervals) →
    messages (trace serve s server ms) = [statusReply "json_format_error"]

variable {serve s server ms} {coin : String} {values : List Value} {backend : PoolBackend}
  (hcoin : ms.lookup "coin" = some (.string coin))
  (hintervals : ms.lookup "intervals" = some (.array values))
  (hbackend : server.backend (cString coin) = some backend)

include hcoin hintervals hbackend

/-- For an existing coin the request is its loop. -/
theorem program_loop : (onBackendPoolLuck server (.object ms)).program =
    luckIntervals values 0 [] (afterLoop backend) := by
  simp only [onBackendPoolLuck, Value.memberIs_object, Value.member_object, hcoin, hintervals,
    Handler.require_bind, Option.any_some, Value.isString, Value.isArray, Bool.not_true,
    Bool.false_eq_true, if_false, Option.bind_some, Value.getArray]
  have hget : Getter.string.get (.string coin) = some (cString coin) := rfl
  simp only [hget, Handler.require_bind, hbackend]
  rw [program, Handler.bind_apply]
  congr 1
  funext found
  cases found with
  | none => rfl
  | some intervals => rfl

theorem trace_valid {intervals : List Int} (h : Valid values intervals) :
    calls (trace serve s server ms) = [.poolLuck backend.accountingDb intervals] := by
  rw [trace, program_loop hcoin hintervals hbackend,
    luckIntervals_rising (rising_zero_iff.mpr h), List.nil_append]
  simp [afterLoop, program]

theorem trace_invalid (h : ∀ intervals, ¬ Valid values intervals) :
    calls (trace serve s server ms) = [] ∧
      messages (trace serve s server ms) = [statusReply "json_format_error"] := by
  have hfails : ∀ found, ¬ Rising 0 values found :=
    fun found hrising => h found (rising_zero_iff.mp hrising)
  rw [trace, program_loop hcoin hintervals hbackend, luckIntervals_fails hfails]
  simp [afterLoop, program, messages]

/-- The intervals of a request for an existing coin are validated. -/
theorem luck_validated : Validated serve s server ms backend values := by
  have hvalid {intervals : List Int} (h : Valid values intervals) :
      calls (trace serve s server ms) = [.poolLuck backend.accountingDb intervals] :=
    trace_valid hcoin hintervals hbackend h
  by_cases hexists : ∃ intervals, Valid values intervals
  · obtain ⟨intervals, h⟩ := hexists
    constructor
    · intro c
      constructor
      · intro hc
        rw [hvalid h] at hc
        exact ⟨intervals, h, List.mem_singleton.mp hc⟩
      · intro hc
        obtain ⟨intervals', h', rfl⟩ := hc
        rw [hvalid h']
        exact List.mem_singleton_self _
    · rw [hvalid h]
      exact Nat.le_refl _
    · intro hnone
      exact absurd h (hnone intervals)
  · have hnone (intervals : List Int) : ¬ Valid values intervals :=
      fun h => hexists ⟨intervals, h⟩
    obtain ⟨hcalls, hmessages⟩ :
        calls (trace serve s server ms) = [] ∧
          messages (trace serve s server ms) = [statusReply "json_format_error"] :=
      trace_invalid hcoin hintervals hbackend hnone
    constructor
    · intro c
      rw [hcalls]
      constructor
      · intro hc
        cases hc
      · intro hc
        obtain ⟨intervals, h, _⟩ := hc
        exact absurd h (hnone intervals)
    · rw [hcalls]
      exact Nat.zero_le _
    · intro _
      exact hmessages

end Request

/-- A request for the luck of the pool's coin. -/
def luckRequest (intervals : List Int) : Members := [
  ("coin", .string "BTC"), ("intervals", .array (intervals.map .int))]

/-- An environment that knows nothing. -/
def silent : Environment Http Unit
  | _, c => (emptyAnswer c, ())

theorem luck_validated_two : ∃ backend, oneCoinServer.backend "BTC" = some backend ∧
    Validated silent () oneCoinServer (luckRequest [600, 3600]) backend [.int 600, .int 3600] := by
  obtain ⟨backend, hbackend⟩ : ∃ backend, oneCoinServer.backend "BTC" = some backend := ⟨_, rfl⟩
  have hcoin : (luckRequest [600, 3600]).lookup "coin" = some (.string "BTC") := rfl
  have hintervals : (luckRequest [600, 3600]).lookup "intervals" =
      some (.array [.int 600, .int 3600]) := rfl
  have hname : cString "BTC" = "BTC" := by decide
  exact ⟨backend, hbackend, luck_validated hcoin hintervals (by rw [hname]; exact hbackend)⟩

end LuckIntervals
