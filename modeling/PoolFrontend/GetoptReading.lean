import PoolFrontend.Getopt
import Mathlib.Data.List.TakeWhile

/-!
# What `getopt_long` reads

The calls are one pass over the arguments: the options in their order, each with the argument it
takes, and the rest in its order. Afterwards the options stand in front, and `optind` is where
the rest begins.
-/
namespace Getopt

open BlockExchange

/-- What a long option is read as, and how many further arguments it takes. -/
def readLong (value : Arg) (next : Option Arg) :
    Option (Nat × LongOption) → (Result × Option Arg) × Nat
  | none => ((.unknown, none), 0)
  | some (index, p) =>
    if value ≠ [] then
      if p.hasArg ≠ .noArgument then ((p.result index, some value.tail), 0)
      else ((.unknown, none), 0)
    else if p.hasArg = .requiredArgument then
      match next with
      | some arg => ((p.result index, some arg), 1)
      | none => ((.unknown, none), 0)
    else ((p.result index, none), 0)

/-- Every character of a short option is unknown. -/
def readOption (longopts : List LongOption) (next : Option Arg) :
    Arg → List (Result × Option Arg) × Nat
  | '-' :: '-' :: text =>
    let (read, n) := readLong (text.dropWhile (· ≠ '=')) next
      (resolve longopts (text.takeWhile (· ≠ '=')))
    ([read], n)
  | arg => (arg.tail.map fun _ => (.unknown, none), 0)

structure Reading where
  results : List (Result × Option Arg) := []
  options : List Arg := []
  operands : List Arg := []
  deriving DecidableEq, Repr

def Reading.operand (arg : Arg) (r : Reading) : Reading := { r with operands := arg :: r.operands }

def Reading.option (read : List (Result × Option Arg)) (taken : List Arg) (r : Reading) :
    Reading :=
  { r with results := read ++ r.results, options := taken ++ r.options }

variable (longopts : List LongOption) (posixlyCorrect : Bool)

def reading : List Arg → Reading
  | [] => {}
  | arg :: rest =>
    if arg = dashes then ⟨[], [dashes], rest⟩
    else if nonoption arg then
      if posixlyCorrect then ⟨[], [], arg :: rest⟩ else (reading rest).operand arg
    else
      let (read, n) := readOption longopts rest.head? arg
      (reading (rest.drop n)).option read (arg :: rest.take n)
termination_by args => args.length
decreasing_by
  · simp
  · rw [List.length_drop, List.length_cons]
    omega

/-- Options in front, other arguments, options after these, and what has not been read. -/
structure Scanned (argv : List Arg) (d : GetoptData) (front others options rest : List Arg) :
    Prop where
  argv : argv = front ++ others ++ options ++ rest
  optind : d.optind = front.length + others.length + options.length
  first : d.firstNonopt = front.length
  last : d.lastNonopt = front.length + others.length
  initialized : d.initialized = true
  nextchar : d.nextchar = []
  ordering : d.ordering = if posixlyCorrect then .requireOrder else .permute
  program : front ≠ []
  inOrder : posixlyCorrect = true → others = []

theorem skip_append (xs rest : List Arg) :
    skipNonoptions (xs ++ rest) xs.length =
      xs.length + (rest.takeWhile nonoption).length := by
  induction rest generalizing xs with
  | nil =>
    rw [skipNonoptions]
    split <;> simp_all
  | cons arg rest ih =>
    rw [skipNonoptions]
    split
    · rename_i found h
      have hfound : found = arg := by simpa using h.symm
      subst hfound
      cases hnon : nonoption found with
      | true =>
        have hrest := ih (xs ++ [found])
        rw [List.append_assoc, List.length_append] at hrest
        simp only [List.singleton_append, List.length_singleton] at hrest
        rw [if_pos rfl, hrest, List.takeWhile_cons, hnon, if_pos rfl, List.length_cons]
        omega
      | false => simp [hnon]
    · rename_i h
      simp at h

theorem regroup_scanned {argv : List Arg} {d : GetoptData}
    {front others options rest : List Arg}
    (h : Scanned posixlyCorrect argv d front others options rest) :
    ∃ last, regroup argv d =
      (front ++ options ++ others ++ rest,
        { d with firstNonopt := (front ++ options).length, lastNonopt := last }) := by
  obtain ⟨rfl, hoptind, hfirst, hlast, -, -, -, -, -⟩ := h
  obtain ⟨optind, optarg, initialized, nextchar, ordering, first, last⟩ := d
  subst hoptind hfirst hlast
  by_cases hoptions : options = []
  · exact ⟨front.length + others.length, by simp [regroup, hoptions]⟩
  by_cases hothers : others = []
  · exact ⟨front.length, by simp [regroup, hothers, hoptions]⟩
  · have hboth : front.length ≠ front.length + others.length ∧
        front.length + others.length ≠ front.length + others.length + options.length := by
      have hopos := List.length_pos_of_ne_nil hoptions
      have hnpos := List.length_pos_of_ne_nil hothers
      omega
    refine ⟨front.length + others.length + options.length, ?_⟩
    rw [regroup, if_pos hboth, exchange, exchange_append, Nat.add_sub_cancel_left,
      List.length_append]

/-- Before the next option is looked at, the options are in front. -/
theorem permuteArgs_scanned {argv : List Arg} {d : GetoptData}
    {front others options rest : List Arg}
    (h : Scanned posixlyCorrect argv d front others options rest) :
    permuteArgs argv d =
      (front ++ options ++ others ++ rest,
        { d with
          optind := (front ++ options ++ others).length + (rest.takeWhile nonoption).length
          firstNonopt := (front ++ options).length
          lastNonopt :=
            (front ++ options ++ others).length + (rest.takeWhile nonoption).length }) := by
  obtain ⟨last, hregroup⟩ := regroup_scanned posixlyCorrect h
  have hplace : d.optind = (front ++ options ++ others).length := by
    rw [h.optind, List.length_append, List.length_append]
    omega
  rw [permuteArgs, hregroup]
  show (_, _) = _
  rw [hplace, skip_append]

/-- Where the next option is looked for: options in front, of which the last may not be counted
as such, the other arguments so far, and what has not been read. -/
structure Ready (argv : List Arg) (d : GetoptData) (front options others rest : List Arg) :
    Prop where
  argv : argv = front ++ options ++ others ++ rest
  optind : d.optind = front.length + options.length + others.length
  first : d.firstNonopt = front.length
  window : options = [] ∧ d.lastNonopt = d.optind ∨
    others = [] ∧ d.lastNonopt = d.firstNonopt
  initialized : d.initialized = true
  nextchar : d.nextchar = []
  ordering : d.ordering = if posixlyCorrect then .requireOrder else .permute
  program : front ≠ []
  inOrder : posixlyCorrect = true → others = []

/-- The arguments that are skipped, and those that are left: the first of these is an option,
unless the order must be kept. -/
structure Skips (skipped left : List Arg) : Prop where
  nonoptions : ∀ arg ∈ skipped, nonoption arg = true
  inOrder : posixlyCorrect = true → skipped = []
  stops : posixlyCorrect = false → ∀ arg rest, left = arg :: rest → nonoption arg = false

theorem advance_scanned {argv : List Arg} {d : GetoptData} {front others options rest : List Arg}
    (h : Scanned posixlyCorrect argv d front others options rest) :
    ∃ skipped left argv' d' front' options', rest = skipped ++ left ∧
      Skips posixlyCorrect skipped left ∧ front' ++ options' = front ++ options ∧
      Ready posixlyCorrect argv' d' front' options' (others ++ skipped) left ∧
      d'.optarg = d.optarg ∧ advance argv d = nextOption argv' d' := by
  have hlast : ¬ d.optind < d.lastNonopt := by
    rw [h.optind, h.last]
    omega
  have hfirst : ¬ d.optind < d.firstNonopt := by
    rw [h.optind, h.first]
    omega
  cases hposix : posixlyCorrect with
  | true =>
    subst hposix
    have hordering : d.ordering ≠ .permute := by
      rw [h.ordering]
      simp
    have hothers : others = [] := h.inOrder rfl
    subst hothers
    refine ⟨[], rest, argv, d, front, options, rfl, ⟨by simp, fun _ => rfl, by simp⟩, rfl, ?_, rfl,
      ?_⟩
    · obtain ⟨hargv, hoptind, hfirst, hlast, hinitialized, hnextchar, hordering, hprogram, -⟩ := h
      constructor <;> simp_all
    · simp only [advance, if_neg hlast, if_neg hfirst, if_neg hordering]
  | false =>
    subst hposix
    have hordering : d.ordering = .permute := h.ordering
    have hadvance := congrArg (fun p => nextOption p.1 p.2) (permuteArgs_scanned false h)
    refine ⟨rest.takeWhile nonoption, rest.dropWhile nonoption, _, _, front ++ options, [],
      List.takeWhile_append_dropWhile.symm, ⟨fun _ hmem => List.mem_takeWhile_imp hmem, by simp,
        ?_⟩, List.append_nil _, ?_, ?_, Eq.trans ?_ hadvance⟩
    · intro _ arg tail hleft
      have hnot := List.head?_dropWhile_not nonoption rest
      rw [hleft] at hnot
      simpa using hnot
    · obtain ⟨-, -, -, -, hinitialized, hnextchar, -, hprogram, -⟩ := h
      constructor
      · rw [List.append_nil, List.append_assoc _ (others ++ _), List.append_assoc others,
          List.takeWhile_append_dropWhile, ← List.append_assoc]
      · simp only [List.length_append, List.length_nil]
        omega
      · rfl
      · exact .inl ⟨rfl, rfl⟩
      · exact hinitialized
      · exact hnextchar
      · exact hordering
      · simp [hprogram]
      · simp
    · rfl
    · simp only [advance, if_neg hlast, if_neg hfirst, if_pos hordering]

section Next

variable {posixlyCorrect : Bool} {argv : List Arg} {d : GetoptData}
variable {front options others left : List Arg}

theorem Ready.getElem (h : Ready posixlyCorrect argv d front options others left) :
    argv[d.optind]? = left[0]? := by
  have hlength : d.optind = (front ++ options ++ others).length := by
    simp only [h.optind, List.length_append]
  rw [h.argv, hlength, List.getElem?_append_right (Nat.le_refl _), Nat.sub_self]

theorem next_empty (h : Ready posixlyCorrect argv d front options others []) :
    ∃ d', nextOption argv d = (front ++ options ++ others, d', some .finished) ∧
      d'.optind = (front ++ options).length := by
  have hnone : argv[d.optind]? = none := h.getElem
  have hargv : argv = front ++ options ++ others := by simpa using h.argv
  have hoptind := h.optind
  have hfirst := h.first
  have hwindow := h.window
  rw [nextOption, endOfOptions, if_neg (by simp [hnone])]
  simp only [hnone]
  refine ⟨_, by rw [hargv], ?_⟩
  rw [List.length_append]
  split
  · rename_i hne
    rcases hwindow with ⟨rfl, -⟩ | ⟨-, hsame⟩
    · exact hfirst
    · exact (hne hsame.symm).elim
  · rename_i heq
    rcases hwindow with ⟨rfl, hlast⟩ | ⟨rfl, -⟩
    · rw [not_not] at heq
      rw [← hlast, ← heq]
      exact hfirst
    · exact hoptind

/-- The end of the options is moved in front like an option. -/
theorem regroupEnd_ready {tail : List Arg}
    (h : Ready posixlyCorrect argv d front options others (dashes :: tail)) :
    ∃ last, regroupEnd argv { d with optind := d.optind + 1 } =
      (front ++ options ++ [dashes] ++ others ++ tail,
        { d with
          firstNonopt := (front ++ options ++ [dashes]).length
          lastNonopt := last
          optind := d.optind + 1 }) := by
  obtain ⟨rfl, hoptind, hfirst, hwindow, -, -, -, -, -⟩ := h
  rw [regroupEnd]
  by_cases hothers : others = []
  · have hsame : d.firstNonopt = d.lastNonopt := by
      rcases hwindow with ⟨rfl, hlast⟩ | ⟨-, hsame⟩
      · rw [hlast, hoptind, hfirst, hothers]
        rfl
      · exact hsame.symm
    refine ⟨d.lastNonopt, ?_⟩
    simp [hsame, hothers, hoptind, Nat.add_assoc]
  · obtain ⟨rfl, hlast⟩ := hwindow.resolve_right fun hnil => hothers hnil.1
    have hpos := List.length_pos_of_ne_nil hothers
    have hboth : d.firstNonopt ≠ d.lastNonopt ∧ d.lastNonopt ≠ d.optind + 1 := by
      rw [hlast, hoptind, hfirst, List.length_nil]
      omega
    have hexchange := exchange_append front others [dashes] tail
    refine ⟨d.optind + 1, ?_⟩
    rw [if_pos hboth, exchange]
    have hargv : exchangeSegments d.firstNonopt d.lastNonopt (d.optind + 1)
        (front ++ [] ++ others ++ dashes :: tail) = front ++ [] ++ [dashes] ++ others ++ tail := by
      simpa [hlast, hoptind, hfirst] using hexchange
    have hmoved : d.firstNonopt + (d.optind + 1 - d.lastNonopt) =
        (front ++ [] ++ [dashes]).length := by
      simp [hlast, hfirst]
    rw [← hargv, ← hmoved]

theorem endOfOptions_dashes {tail : List Arg}
    (h : Ready posixlyCorrect argv d front options others (dashes :: tail)) :
    endOfOptions argv d =
      (front ++ options ++ [dashes] ++ others ++ tail,
        { d with
          firstNonopt := (front ++ options ++ [dashes]).length
          lastNonopt := (front ++ options ++ [dashes] ++ others ++ tail).length
          optind := (front ++ options ++ [dashes] ++ others ++ tail).length }) := by
  obtain ⟨last, hregroup⟩ := regroupEnd_ready h
  have hdashes : argv[d.optind]? = some dashes := h.getElem
  rw [endOfOptions, if_pos hdashes, hregroup]

theorem next_dashes {tail : List Arg}
    (h : Ready posixlyCorrect argv d front options others (dashes :: tail)) :
    ∃ d', nextOption argv d =
        (front ++ options ++ [dashes] ++ others ++ tail, d', some .finished) ∧
      d'.optind = (front ++ options ++ [dashes]).length := by
  rw [nextOption, endOfOptions_dashes h]
  simp only [List.getElem?_eq_none (Nat.le_refl _)]
  refine ⟨_, rfl, ?_⟩
  split
  · rfl
  · rename_i heq
    exact (not_not.mp heq).symm

theorem next_option {arg : Arg} {tail : List Arg}
    (h : Ready posixlyCorrect argv d front options others (arg :: tail)) (hdashes : arg ≠ dashes) :
    nextOption argv d =
      if nonoption arg then
        if posixlyCorrect then (argv, d, some .finished)
        else (argv, { d with optarg := some arg, optind := d.optind + 1 }, some .argument)
      else (argv, { d with nextchar := arg.drop (if arg[1]? = some '-' then 2 else 1) }, none) := by
  have harg : argv[d.optind]? = some arg := h.getElem
  have hother : ¬ argv[d.optind]? = some dashes := by
    rw [harg]
    simpa using hdashes
  rw [nextOption, endOfOptions, if_neg hother]
  simp only [harg, h.ordering]
  cases posixlyCorrect <;> rfl

/-- An option and what it takes join the options. -/
theorem Ready.taken {arg : Arg} {tail : List Arg}
    (h : Ready posixlyCorrect argv d front options others (arg :: tail)) {n : Nat}
    (hn : n ≤ tail.length) (optarg : Option Arg) :
    Scanned posixlyCorrect argv { d with optind := d.optind + 1 + n, optarg, nextchar := [] }
      front others (options ++ arg :: tail.take n) (tail.drop n) := by
  obtain ⟨hargv, hoptind, hfirst, hwindow, hinitialized, -, hordering, hprogram, hinOrder⟩ := h
  have hlength : (tail.take n).length = n := List.length_take_of_le hn
  constructor
  · rcases hwindow with ⟨rfl, -⟩ | ⟨rfl, -⟩ <;> simp [hargv]
  · simp only [List.length_append, List.length_cons, hlength, hoptind]
    omega
  · exact hfirst
  · rcases hwindow with ⟨rfl, hlast⟩ | ⟨rfl, hlast⟩
    · rw [hlast, hoptind]
      rfl
    · rw [hlast, hfirst]
      rfl
  · exact hinitialized
  · rfl
  · exact hordering
  · exact hprogram
  · exact hinOrder

end Next

section Calls

variable {posixlyCorrect : Bool} {argv : List Arg} {d : GetoptData}
variable {front options others tail : List Arg}

theorem LongOption.result_ne_finished (p : LongOption) (index : Nat) :
    p.result index ≠ .finished := by
  unfold LongOption.result
  split <;> simp

theorem foundOption_read (value : Arg) {next : Option Arg} (hoptarg : d.optarg = none)
    (hnext : argv[d.optind]? = next) (resolved : Option (Nat × LongOption)) :
    ∃ result optarg n, n ≤ next.toList.length ∧
      readLong value next resolved = ((result, optarg), n) ∧ result ≠ .finished ∧
      foundOption value argv d resolved =
        (result, argv, { d with optind := d.optind + n, optarg }) := by
  obtain ⟨optind, optarg, initialized, nextchar, ordering, first, last⟩ := d
  subst hoptarg
  cases resolved with
  | none => exact ⟨.unknown, none, 0, Nat.zero_le _, rfl, by simp, rfl⟩
  | some entry =>
    obtain ⟨index, p⟩ := entry
    by_cases hvalue : value = []
    · by_cases hrequired : p.hasArg = .requiredArgument
      · cases next with
        | none =>
          exact ⟨.unknown, none, 0, Nat.le_refl _, by simp [readLong, hvalue, hrequired], by simp,
            by simp [foundOption, hvalue, hrequired, hnext]⟩
        | some arg =>
          exact ⟨p.result index, some arg, 1, Nat.le_refl _,
            by simp [readLong, hvalue, hrequired], p.result_ne_finished index,
            by simp [foundOption, hvalue, hrequired, hnext]⟩
      · exact ⟨p.result index, none, 0, Nat.zero_le _, by simp [readLong, hvalue, hrequired],
          p.result_ne_finished index, by simp [foundOption, hvalue, hrequired]⟩
    · by_cases hnone : p.hasArg = .noArgument
      · exact ⟨.unknown, none, 0, Nat.zero_le _, by simp [readLong, hvalue, hnone], by simp,
          by simp [foundOption, hvalue, hnone]⟩
      · exact ⟨p.result index, some value.tail, 0, Nat.zero_le _,
          by simp [readLong, hvalue, hnone], p.result_ne_finished index,
          by simp [foundOption, hvalue, hnone]⟩

theorem decode_long {text : Arg}
    (h : Ready posixlyCorrect argv d front options others (('-' :: '-' :: text) :: tail))
    (hoptarg : d.optarg = none) :
    ∃ result optarg n, n ≤ tail.length ∧
      readOption longopts tail.head? ('-' :: '-' :: text) = ([(result, optarg)], n) ∧
      result ≠ .finished ∧
      decode longopts argv { d with nextchar := text } =
        (result, argv, { d with optind := d.optind + 1 + n, optarg, nextchar := [] }) := by
  have harg : argv[d.optind]? = some ('-' :: '-' :: text) := h.getElem
  have hnext : argv[d.optind + 1]? = tail.head? := by
    have hlength : d.optind = (front ++ options ++ others).length := by
      simp only [h.optind, List.length_append]
    rw [h.argv, hlength, List.getElem?_append_right (Nat.le_add_right _ 1),
      Nat.add_sub_cancel_left,
      List.getElem?_cons_succ, List.head?_eq_getElem?]
  obtain ⟨result, optarg, n, hn, hread, hresult, hfound⟩ :=
    foundOption_read (d := { d with nextchar := [], optind := d.optind + 1 })
      (text.dropWhile (· ≠ '=')) hoptarg hnext (resolve longopts (text.takeWhile (· ≠ '=')))
  refine ⟨result, optarg, n, ?_, ?_, hresult, ?_⟩
  · cases tail with
    | nil => exact hn
    | cons arg tail => exact hn.trans (by simp)
  · rw [readOption, hread]
  · rw [decode, if_pos (by simp [harg]), longOption, hfound]

/-- What follows a call: the end, or the other calls. -/
def after (posixlyCorrect : Bool) (fuel : Nat) : Result × List Arg × GetoptData →
    Option (List (Result × Option Arg) × List Arg × GetoptData)
  | (.finished, argv, d) => some ([], argv, d)
  | (result, argv, d) =>
    (calls longopts posixlyCorrect fuel argv d).map fun (results, last) =>
      ((result, d.optarg) :: results, last)

theorem calls_succ (fuel : Nat) :
    calls longopts posixlyCorrect (fuel + 1) argv d =
      after longopts posixlyCorrect fuel (getoptLong longopts posixlyCorrect argv d) := by
  rw [calls]
  cases getoptLong longopts posixlyCorrect argv d with
  | mk result state => cases result <;> rfl

/-- Results in front of those of the other calls. -/
def prepend (read : List (Result × Option Arg))
    (all : List (Result × Option Arg) × List Arg × GetoptData) :
    List (Result × Option Arg) × List Arg × GetoptData :=
  (read ++ all.1, all.2)

theorem after_option {result : Result} (h : result ≠ .finished) (fuel : Nat) :
    after longopts posixlyCorrect fuel (result, argv, d) =
      (calls longopts posixlyCorrect fuel argv d).map (prepend [(result, d.optarg)]) := by
  cases result with
  | finished => exact (h rfl).elim
  | _ => rfl

/-- Between two characters of an argument nothing is looked for. -/
theorem getoptLong_within (hargv : argv ≠ []) (hoptind : d.optind ≠ 0)
    (hinitialized : d.initialized = true) (hoptarg : d.optarg = none)
    (hnextchar : d.nextchar ≠ []) :
    getoptLong longopts posixlyCorrect argv d = decode longopts argv d := by
  obtain ⟨optind, optarg, initialized, nextchar, ordering, first, last⟩ := d
  subst hinitialized hoptarg
  simp [getoptLong, hargv, hoptind, hnextchar]

/-- Each character is a call of its own. -/
theorem short_calls {arg : Arg}
    (h : Ready posixlyCorrect argv d front options others (arg :: tail))
    (hoptarg : d.optarg = none) (hshort : arg[1]? ≠ some '-') (c : Char) (cs : Arg) (k : Nat) :
    after longopts posixlyCorrect (cs.length + k)
        (decode longopts argv { d with nextchar := c :: cs }) =
      (calls longopts posixlyCorrect k argv
        { d with optind := d.optind + 1, nextchar := [] }).map
        (prepend ((c :: cs).map fun _ => (.unknown, none))) := by
  have harg : argv[d.optind]? = some arg := h.getElem
  have hdecode : ∀ nextchar, decode longopts argv { d with nextchar } =
      shortOption argv { d with nextchar } := by
    intro nextchar
    rw [decode, if_neg (by simpa [harg] using hshort)]
  induction cs generalizing c with
  | nil =>
    rw [hdecode, shortOption, after_option longopts (by simp)]
    simp [hoptarg]
  | cons c' cs ih =>
    have hargv : argv ≠ [] := by
      rw [h.argv]
      simp
    have hoptind : d.optind ≠ 0 := by
      have hpos := List.length_pos_of_ne_nil h.program
      rw [h.optind]
      omega
    rw [hdecode, shortOption, after_option longopts (by simp), List.length_cons,
      Nat.add_right_comm, calls_succ]
    simp only [List.tail_cons, reduceCtorEq, if_false]
    have hwithin : getoptLong longopts posixlyCorrect argv { d with nextchar := c' :: cs } =
        decode longopts argv { d with nextchar := c' :: cs } :=
      getoptLong_within longopts hargv hoptind h.initialized hoptarg (by simp)
    rw [hwithin, ih c', Option.map_map, hoptarg]
    rfl

theorem getoptLong_scanned {rest : List Arg}
    (h : Scanned posixlyCorrect argv d front others options rest) :
    getoptLong longopts posixlyCorrect argv d =
      decodeNext longopts (advance argv { d with optarg := none }) := by
  have hargv : argv ≠ [] := by
    rw [h.argv]
    simp [h.program]
  have hoptind : d.optind ≠ 0 := by
    have hpos := List.length_pos_of_ne_nil h.program
    rw [h.optind]
    omega
  simp [getoptLong, hargv, hoptind, h.initialized, h.nextchar]

/-- The calls for one option read it, and leave the rest to the calls after them. -/
theorem option_calls {arg : Arg}
    (h : Ready posixlyCorrect argv d front options others (arg :: tail))
    (hoptarg : d.optarg = none) (hdashes : arg ≠ dashes) (hoption : nonoption arg = false) :
    ∃ read n m optarg, readOption longopts tail.head? arg = (read, n) ∧ read.length = m + 1 ∧
      n ≤ tail.length ∧ ∀ k,
        after longopts posixlyCorrect (m + k) (decodeNext longopts (nextOption argv d)) =
          (calls longopts posixlyCorrect k argv
            { d with optind := d.optind + 1 + n, optarg, nextchar := [] }).map (prepend read) := by
  rw [next_option h hdashes, hoption, if_neg (by simp), decodeNext]
  obtain ⟨c, cs, rfl⟩ : ∃ c cs, arg = '-' :: c :: cs := by
    cases arg with
    | nil => simp [nonoption] at hoption
    | cons c₀ arg =>
      cases arg with
      | nil => simp [nonoption] at hoption
      | cons c cs =>
        have hfirst : c₀ = '-' := by simpa [nonoption] using hoption
        exact ⟨c, cs, by rw [hfirst]⟩
  by_cases hlong : c = '-'
  · subst hlong
    obtain ⟨result, optarg, n, hn, hread, hresult, hdecode⟩ := decode_long longopts h hoptarg
    refine ⟨_, n, 0, optarg, hread, rfl, hn, ?_⟩
    intro k
    have hchars : ('-' :: '-' :: cs : Arg).drop (if ('-' :: '-' :: cs : Arg)[1]? = some '-'
        then 2 else 1) = cs := by simp
    rw [hchars, hdecode, after_option longopts hresult, Nat.zero_add]
  · have hshort : ('-' :: c :: cs : Arg)[1]? ≠ some '-' := by simpa using hlong
    refine ⟨(c :: cs).map fun _ => (.unknown, none), 0, cs.length, d.optarg, ?_, by simp,
      Nat.zero_le _, ?_⟩
    · rw [readOption]
      · rfl
      · intro text htext
        cases htext
        exact hlong rfl
    · intro k
      rw [if_neg hshort]
      exact short_calls longopts h hoptarg hshort c cs k

/-- Skipped arguments are operands. -/
theorem reading_skip {skipped left : List Arg} (h : Skips posixlyCorrect skipped left) :
    reading longopts posixlyCorrect (skipped ++ left) =
      { reading longopts posixlyCorrect left with
        operands := skipped ++ (reading longopts posixlyCorrect left).operands } := by
  cases hposix : posixlyCorrect with
  | true =>
    rw [h.inOrder hposix]
    rfl
  | false =>
    have hnonoptions := h.nonoptions
    clear h hposix
    induction skipped with
    | nil => rfl
    | cons arg skipped ih =>
      have harg := hnonoptions arg List.mem_cons_self
      have hdashes : arg ≠ dashes := by
        rintro rfl
        simp [nonoption, dashes] at harg
      rw [List.cons_append, reading, if_neg hdashes, if_pos harg, if_neg (by simp),
        ih fun a ha => hnonoptions a (List.mem_cons_of_mem _ ha)]
      rfl

/-- From any state between two options the calls read what is left in one pass. -/
theorem calls_scanned {rest : List Arg}
    (h : Scanned posixlyCorrect argv d front others options rest) (k : Nat) :
    ∃ d', calls longopts posixlyCorrect
        ((reading longopts posixlyCorrect rest).results.length + 1 + k) argv d =
          some ((reading longopts posixlyCorrect rest).results,
            front ++ options ++ (reading longopts posixlyCorrect rest).options ++ others ++
              (reading longopts posixlyCorrect rest).operands, d') ∧
      d'.optind =
        (front ++ options ++ (reading longopts posixlyCorrect rest).options).length := by
  induction hsize : rest.length using Nat.strongRecOn
    generalizing argv d front others options rest k with
  | ind size ih =>
    have hclear : Scanned posixlyCorrect argv { d with optarg := none } front others options rest :=
      ⟨h.argv, h.optind, h.first, h.last, h.initialized, h.nextchar, h.ordering, h.program,
        h.inOrder⟩
    obtain ⟨skipped, left, argv', d', front', options', rfl, hskips, hfront, hready, hoptarg,
      hadvance⟩ := advance_scanned posixlyCorrect hclear
    rw [reading_skip longopts hskips, ← hfront, ← List.append_assoc _ skipped,
      List.append_assoc _ others skipped]
    cases left with
    | nil =>
      obtain ⟨last, hnext, hoptind⟩ := next_empty hready
      refine ⟨last, ?_, by simpa [reading] using hoptind⟩
      rw [Nat.add_right_comm, calls_succ, getoptLong_scanned longopts h, hadvance, hnext]
      simp [reading, decodeNext, after]
    | cons arg tail =>
      by_cases hdashes : arg = dashes
      · subst hdashes
        obtain ⟨last, hnext, hoptind⟩ := next_dashes hready
        refine ⟨last, ?_, by simpa [reading] using hoptind⟩
        rw [Nat.add_right_comm, calls_succ, getoptLong_scanned longopts h, hadvance, hnext]
        simp [reading, decodeNext, after]
      cases hnonoption : nonoption arg with
      | true =>
        have hposix : posixlyCorrect = true := by
          by_contra hnot
          have hstop := hskips.stops (Bool.not_eq_true _ ▸ hnot) arg tail rfl
          rw [hnonoption] at hstop
          cases hstop
        subst hposix
        have hothers := hready.inOrder rfl
        have hnext := next_option hready hdashes
        rw [hnonoption, if_pos rfl, if_pos rfl] at hnext
        have hreading : reading longopts true (arg :: tail) = ⟨[], [], arg :: tail⟩ := by
          rw [reading, if_neg hdashes, if_pos hnonoption, if_pos rfl]
        rw [hreading]
        refine ⟨d', ?_, ?_⟩
        · rw [Nat.add_right_comm, calls_succ, getoptLong_scanned longopts h, hadvance, hnext,
            decodeNext, after, hready.argv, List.append_nil]
        · rw [hready.optind, hothers, List.append_nil, List.length_append]
          rfl
      | false =>
        obtain ⟨read, n, m, optarg, hread, hlength, hn, hcalls⟩ :=
          option_calls longopts hready hoptarg hdashes hnonoption
        have hreading : reading longopts posixlyCorrect (arg :: tail) =
            (reading longopts posixlyCorrect (tail.drop n)).option read (arg :: tail.take n) := by
          rw [reading, if_neg hdashes, hnonoption, if_neg (by simp), hread]
        have hless : (tail.drop n).length < size := by
          rw [← hsize, List.length_append, List.length_cons, List.length_drop]
          omega
        obtain ⟨last, hrest, hoptind⟩ := ih _ hless (hready.taken hn optarg) k rfl
        have hfuel :
            (read ++ (reading longopts posixlyCorrect (tail.drop n)).results).length + 1 + k =
              m + ((reading longopts posixlyCorrect (tail.drop n)).results.length + 1 + k) + 1 := by
          rw [List.length_append, hlength]
          omega
        rw [hreading]
        refine ⟨last, ?_, by simpa [Reading.option] using hoptind⟩
        simp only [Reading.option]
        rw [hfuel, calls_succ, getoptLong_scanned longopts h, hadvance, hcalls, hrest]
        simp [prepend]

end Calls

/-- The state after the initialization of the first call. -/
theorem getoptLong_first (program : Arg) (args : List Arg) :
    getoptLong longopts posixlyCorrect (program :: args) {} =
      getoptLong longopts posixlyCorrect (program :: args)
        { getoptInitialize posixlyCorrect {} with initialized := true } := by
  simp [getoptLong, getoptInitialize]

theorem scanned_first (program : Arg) (args : List Arg) :
    Scanned posixlyCorrect (program :: args)
      { getoptInitialize posixlyCorrect {} with initialized := true } [program] [] [] args := by
  constructor <;> simp [getoptInitialize]

/-- Every argument is read once, and each of the two kinds keeps its order. -/
theorem reading_perm (args : List Arg) :
    ((reading longopts posixlyCorrect args).options ++
      (reading longopts posixlyCorrect args).operands).Perm args ∧
      (reading longopts posixlyCorrect args).options.Sublist args ∧
      (reading longopts posixlyCorrect args).operands.Sublist args := by
  induction args using reading.induct longopts posixlyCorrect with
  | case1 => simp [reading]
  | case2 rest => simp [reading]
  | case3 arg rest hdashes hnonoption hposix => simp [reading, hdashes, hnonoption, hposix]
  | case4 arg rest hdashes hnonoption hposix ih =>
    obtain ⟨hperm, hoptions, hoperands⟩ := ih
    rw [reading, if_neg hdashes, if_pos hnonoption, if_neg hposix]
    refine ⟨List.perm_middle.trans (hperm.cons arg), hoptions.cons arg, hoperands.cons_cons arg⟩
  | case5 arg rest hdashes hnonoption read n hread ih =>
    obtain ⟨hperm, hoptions, hoperands⟩ := ih
    rw [reading, if_neg hdashes, if_neg hnonoption, hread]
    have hsplit : rest.take n ++ rest.drop n = rest := List.take_append_drop n rest
    refine ⟨?_, ?_, (hoperands.trans (List.drop_sublist n rest)).cons arg⟩
    · have htaken := (hperm.append_left (rest.take n)).cons arg
      rw [hsplit] at htaken
      simpa [Reading.option] using htaken
    · have htaken := (hoptions.append_left (rest.take n)).cons_cons arg
      rw [hsplit] at htaken
      exact htaken

/-- An option that was found reads its own argument only. -/
theorem readLong_own {value : Arg} {next next' : Option Arg}
    {resolved : Option (Nat × LongOption)} {read : Result × Option Arg} {n : Nat}
    (h : readLong value next resolved = (read, n)) (hknown : read.1 ≠ .unknown)
    (hnext : n = 0 ∨ next' = next) : readLong value next' resolved = (read, n) := by
  cases resolved with
  | none =>
    cases h
    exact (hknown rfl).elim
  | some entry =>
    obtain ⟨index, p⟩ := entry
    by_cases htakes : value = [] ∧ p.hasArg = .requiredArgument
    · cases next with
      | none =>
        simp only [readLong, htakes, ne_eq, not_true_eq_false, if_false, if_true] at h
        cases h
        exact (hknown rfl).elim
      | some arg =>
        simp only [readLong, htakes, ne_eq, not_true_eq_false, if_false, if_true] at h
        cases h
        rw [hnext.resolve_left (by simp)]
        simp [readLong, htakes]
    · rw [← h]
      by_cases hvalue : value = [] <;> simp_all [readLong]

theorem readOption_own {longopts : List LongOption} {next next' : Option Arg} {arg : Arg}
    {read : List (Result × Option Arg)} {n : Nat} (h : readOption longopts next arg = (read, n))
    (hknown : ∀ x ∈ read, x.1 ≠ .unknown) (hnext : n = 0 ∨ next' = next) :
    readOption longopts next' arg = (read, n) := by
  unfold readOption at h ⊢
  split at h
  · rename_i text
    cases hlong : readLong (text.dropWhile (· ≠ '=')) next
        (resolve longopts (text.takeWhile (· ≠ '='))) with
    | mk one m =>
      rw [hlong] at h
      cases h
      rw [readLong_own hlong (hknown one (List.mem_singleton_self _)) hnext]
  · exact h

theorem readLong_le (value : Arg) (next : Option Arg) (resolved : Option (Nat × LongOption)) :
    (readLong value next resolved).2 ≤ next.toList.length := by
  cases resolved with
  | none => exact Nat.zero_le _
  | some entry =>
    obtain ⟨index, p⟩ := entry
    cases next with
    | none =>
      simp only [readLong]
      split <;> split <;> exact Nat.zero_le _
    | some arg =>
      simp only [readLong]
      split <;> split <;> simp

theorem readOption_le {longopts : List LongOption} {next : Option Arg} {arg : Arg}
    {read : List (Result × Option Arg)} {n : Nat} (h : readOption longopts next arg = (read, n)) :
    n ≤ next.toList.length := by
  unfold readOption at h
  split at h
  · cases h
    exact readLong_le _ _ _
  · cases h
    exact Nat.zero_le _

/-- Where every option is known, the reading stays the same when its operands, and others in
front of them, are moved behind its options. -/
theorem reading_behind {args : List Arg}
    (hknown : ∀ x ∈ (reading longopts posixlyCorrect args).results, x.1 ≠ .unknown)
    {moved : List Arg} (hmoved : ∀ arg ∈ moved, nonoption arg = true)
    (hinOrder : posixlyCorrect = true → moved = []) :
    reading longopts posixlyCorrect ((reading longopts posixlyCorrect args).options ++
      (moved ++ (reading longopts posixlyCorrect args).operands)) =
        { reading longopts posixlyCorrect args with
          operands := moved ++ (reading longopts posixlyCorrect args).operands } := by
  induction args using reading.induct longopts posixlyCorrect generalizing moved with
  | case1 =>
    have hskips : Skips posixlyCorrect moved [] := ⟨hmoved, hinOrder, by simp⟩
    simpa [reading] using reading_skip longopts hskips
  | case2 rest => simp [reading]
  | case3 arg rest hdashes hnonoption hposix =>
    simp [reading, hdashes, hnonoption, hposix, hinOrder hposix]
  | case4 arg rest hdashes hnonoption hposix ih =>
    rw [reading, if_neg hdashes, if_pos hnonoption, if_neg hposix] at hknown ⊢
    have hall : ∀ a ∈ moved ++ [arg], nonoption a = true := by
      intro a ha
      rcases List.mem_append.mp ha with hold | hnew
      · exact hmoved a hold
      · rw [List.mem_singleton.mp hnew]
        exact hnonoption
    have hrest := ih hknown hall fun h => (hposix h).elim
    simpa [Reading.operand] using hrest
  | case5 arg rest hdashes hnonoption read n hread ih =>
    rw [reading, if_neg hdashes, if_neg hnonoption, hread] at hknown ⊢
    have hfirst : ∀ x ∈ read, x.1 ≠ .unknown := fun x hx => hknown x (List.mem_append_left _ hx)
    have hrest := ih (fun x hx => hknown x (List.mem_append_right _ hx)) hmoved hinOrder
    have hn : (rest.take n).length = n := by
      apply List.length_take_of_le
      cases rest with
      | nil => exact readOption_le hread
      | cons a rest => exact (readOption_le hread).trans (by simp)
    have hown : n = 0 ∨ (rest.take n ++ ((reading longopts posixlyCorrect (rest.drop n)).options ++
        (moved ++ (reading longopts posixlyCorrect (rest.drop n)).operands))).head? =
          rest.head? := by
      cases n with
      | zero => exact .inl rfl
      | succ n =>
        cases rest with
        | nil => cases hn
        | cons a rest => exact .inr rfl
    simp only [Reading.option, List.cons_append, List.append_assoc]
    rw [reading, if_neg hdashes, if_neg hnonoption, readOption_own hread hfirst hown]
    simp only [List.drop_left' hn, List.take_left' hn, hrest, Reading.option, List.cons_append]

theorem reading_normal {args : List Arg}
    (hknown : ∀ x ∈ (reading longopts posixlyCorrect args).results, x.1 ≠ .unknown) :
    reading longopts posixlyCorrect ((reading longopts posixlyCorrect args).options ++
      (reading longopts posixlyCorrect args).operands) =
        reading longopts posixlyCorrect args :=
  reading_behind longopts posixlyCorrect hknown (List.forall_mem_nil _) fun _ => rfl

/-- An option that lacks its argument would take an operand that has been moved behind it. -/
example : (reading [⟨['n'], .requiredArgument, none, 1⟩] false [['a'], ['-', '-', 'n']]).results =
    [(.unknown, none)] ∧
    (reading [⟨['n'], .requiredArgument, none, 1⟩] false [['-', '-', 'n'], ['a']]).results =
      [(.found 0 1, some ['a'])] := by
  simp [reading, readOption, readLong, resolve, search, nonoption, dashes, Reading.operand,
    Reading.option, LongOption.result]

theorem calls_reading (program : Arg) (args : List Arg) (k : Nat) :
    ∃ d, calls longopts posixlyCorrect
        ((reading longopts posixlyCorrect args).results.length + 1 + k) (program :: args) {} =
          some ((reading longopts posixlyCorrect args).results,
            program :: ((reading longopts posixlyCorrect args).options ++
              (reading longopts posixlyCorrect args).operands), d) ∧
      d.optind = (reading longopts posixlyCorrect args).options.length + 1 := by
  obtain ⟨d, hcalls, hoptind⟩ :=
    calls_scanned longopts (scanned_first posixlyCorrect program args) k
  refine ⟨d, ?_, by simpa using hoptind⟩
  rw [Nat.add_right_comm, calls_succ] at hcalls ⊢
  rw [getoptLong_first]
  simpa using hcalls

/-- Called until it is done, `getopt_long` returns the options of the command line in their
order. It has then moved all other arguments behind them, has lost and doubled none, has kept
the order of both, and has left `optind` at the first that is no option. -/
theorem getopt_reads (program : Arg) (args : List Arg) (k : Nat) :
    (∃ d, calls longopts posixlyCorrect
        ((reading longopts posixlyCorrect args).results.length + 1 + k) (program :: args) {} =
          some ((reading longopts posixlyCorrect args).results,
            program :: ((reading longopts posixlyCorrect args).options ++
              (reading longopts posixlyCorrect args).operands), d) ∧
      d.optind = (reading longopts posixlyCorrect args).options.length + 1) ∧
    ((reading longopts posixlyCorrect args).options ++
      (reading longopts posixlyCorrect args).operands).Perm args ∧
    (reading longopts posixlyCorrect args).options.Sublist args ∧
    (reading longopts posixlyCorrect args).operands.Sublist args :=
  ⟨calls_reading longopts posixlyCorrect program args k, reading_perm longopts posixlyCorrect args⟩

end Getopt
