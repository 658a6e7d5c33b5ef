import PoolFrontend.BlockExchange
import Mathlib.Data.List.Induction

/-!
# The vendored `getopt_long`

As `noderpc` calls it: no short options, a table of long ones, and either order of the arguments.
The options are moved in front of the other arguments while they are read.
-/
namespace Getopt

open BlockExchange

abbrev Arg := List Char

inductive HasArg where
  | noArgument
  | requiredArgument
  | optionalArgument
  deriving DecidableEq, Repr

/-- `struct option`; a flag is the variable that it points to. -/
structure LongOption where
  name : Arg
  hasArg : HasArg
  flag : Option Nat := none
  val : Int
  deriving DecidableEq, Repr

inductive Ordering where
  | requireOrder
  | permute
  deriving DecidableEq, Repr

/-- `struct _getopt_data`; a pointer to the end of an argument is as good as none. -/
structure GetoptData where
  optind : Nat := 1
  optarg : Option Arg := none
  initialized : Bool := false
  nextchar : Arg := []
  ordering : Ordering := .permute
  firstNonopt : Nat := 0
  lastNonopt : Nat := 0
  deriving DecidableEq, Repr

/-- `-1`, `'?'`, `1` for an argument that is no option, or the index and the value of a long
option; `0` where the value has been stored in its flag. -/
inductive Result where
  | finished
  | unknown
  | argument
  | found (index : Nat) (val : Int)
  | stored (index flag : Nat) (val : Int)
  deriving DecidableEq, Repr

def LongOption.result (p : LongOption) (index : Nat) : Result :=
  match p.flag with
  | some flag => .stored index flag p.val
  | none => .found index p.val

def exchange (argv : List Arg) (d : GetoptData) : List Arg × GetoptData :=
  (exchangeSegments d.firstNonopt d.lastNonopt d.optind argv,
    { d with
      firstNonopt := d.firstNonopt + (d.optind - d.lastNonopt)
      lastNonopt := d.optind })

def getoptInitialize (posixlyCorrect : Bool) (d : GetoptData) : GetoptData :=
  { d with
    firstNonopt := d.optind
    lastNonopt := d.optind
    nextchar := []
    ordering := if posixlyCorrect then .requireOrder else .permute }

/-- `NONOPTION_P`. -/
def nonoption (arg : Arg) : Bool := arg[0]? ≠ some '-' || arg[1]? = none

def skipNonoptions (argv : List Arg) (optind : Nat) : Nat :=
  match h : argv[optind]? with
  | some arg => if nonoption arg then skipNonoptions argv (optind + 1) else optind
  | none => optind
termination_by argv.length - optind
decreasing_by
  obtain ⟨hlt, -⟩ := List.getElem?_eq_some_iff.mp h
  omega

/-- Options that follow other arguments are exchanged with these. -/
def regroup (argv : List Arg) (d : GetoptData) : List Arg × GetoptData :=
  if d.firstNonopt ≠ d.lastNonopt ∧ d.lastNonopt ≠ d.optind then exchange argv d
  else if d.lastNonopt ≠ d.optind then (argv, { d with firstNonopt := d.optind })
  else (argv, d)

/-- Then further arguments that are no options are skipped. -/
def permuteArgs (argv : List Arg) (d : GetoptData) : List Arg × GetoptData :=
  let (argv, d) := regroup argv d
  let optind := skipNonoptions argv d.optind
  (argv, { d with optind, lastNonopt := optind })

def dashes : Arg := ['-', '-']

/-- The argument in front of `optind` is exchanged like an option. -/
def regroupEnd (argv : List Arg) (d : GetoptData) : List Arg × GetoptData :=
  if d.firstNonopt ≠ d.lastNonopt ∧ d.lastNonopt ≠ d.optind then exchange argv d
  else if d.firstNonopt = d.lastNonopt then (argv, { d with firstNonopt := d.optind })
  else (argv, d)

/-- The argument `--` ends the options. -/
def endOfOptions (argv : List Arg) (d : GetoptData) : List Arg × GetoptData :=
  if argv[d.optind]? = some dashes then
    let (argv, d) := regroupEnd argv { d with optind := d.optind + 1 }
    (argv, { d with lastNonopt := argv.length, optind := argv.length })
  else (argv, d)

/-- From the test for `--` to the text of the next option, unless there is something to return
before. -/
def nextOption (argv : List Arg) (d : GetoptData) : List Arg × GetoptData × Option Result :=
  let (argv, d) := endOfOptions argv d
  match argv[d.optind]? with
  | none =>
    let d := if d.firstNonopt ≠ d.lastNonopt then { d with optind := d.firstNonopt } else d
    (argv, d, some .finished)
  | some arg =>
    if nonoption arg then
      if d.ordering = .requireOrder then (argv, d, some .finished)
      else (argv, { d with optarg := some arg, optind := d.optind + 1 }, some .argument)
    else (argv, { d with nextchar := arg.drop (if arg[1]? = some '-' then 2 else 1) }, none)

def advance (argv : List Arg) (d : GetoptData) : List Arg × GetoptData × Option Result :=
  let d := if d.optind < d.lastNonopt then { d with lastNonopt := d.optind } else d
  let d := if d.optind < d.firstNonopt then { d with firstNonopt := d.optind } else d
  let (argv, d) := if d.ordering = .permute then permuteArgs argv d else (argv, d)
  nextOption argv d

structure Search where
  pfound : Option (Nat × LongOption) := none
  ambiguous : Bool := false
  exact : Bool := false
  deriving DecidableEq, Repr

/-- The loop over the table; it stops at the name itself. -/
def search (key : Arg) : List LongOption → (index : Nat) → Search → Search
  | [], _, s => s
  | p :: rest, index, s =>
    if key.isPrefixOf p.name then
      if key.length = p.name.length then { s with pfound := some (index, p), exact := true }
      else
        match s.pfound with
        | none => search key rest (index + 1) { s with pfound := some (index, p) }
        | some (_, pfound) =>
          if pfound.hasArg ≠ p.hasArg ∨ pfound.flag ≠ p.flag ∨ pfound.val ≠ p.val then
            search key rest (index + 1) { s with ambiguous := true }
          else search key rest (index + 1) s
    else search key rest (index + 1) s

/-- The entry that a name or an abbreviation stands for. -/
def resolve (longopts : List LongOption) (key : Arg) : Option (Nat × LongOption) :=
  let s := search key longopts 0 {}
  if s.ambiguous ∧ ¬ s.exact then none else s.pfound

/-- The argument of an option that was found, if it takes one. -/
def foundOption (nameend : Arg) (argv : List Arg) (d : GetoptData) :
    Option (Nat × LongOption) → Result × List Arg × GetoptData
  | none => (.unknown, argv, d)
  | some (index, pfound) =>
    if nameend ≠ [] then
      if pfound.hasArg ≠ .noArgument then
        (pfound.result index, argv, { d with optarg := some nameend.tail })
      else (.unknown, argv, d)
    else if pfound.hasArg = .requiredArgument then
      match argv[d.optind]? with
      | some arg =>
        (pfound.result index, argv, { d with optarg := some arg, optind := d.optind + 1 })
      | none => (.unknown, argv, d)
    else (pfound.result index, argv, d)

variable (longopts : List LongOption)

def longOption (argv : List Arg) (d : GetoptData) : Result × List Arg × GetoptData :=
  let key := d.nextchar.takeWhile (· ≠ '=')
  let nameend := d.nextchar.dropWhile (· ≠ '=')
  foundOption nameend argv { d with nextchar := [], optind := d.optind + 1 } (resolve longopts key)

/-- There is no short option. -/
def shortOption (argv : List Arg) (d : GetoptData) : Result × List Arg × GetoptData :=
  let nextchar := d.nextchar.tail
  (.unknown, argv,
    { d with nextchar, optind := if nextchar = [] then d.optind + 1 else d.optind })

def decode (argv : List Arg) (d : GetoptData) : Result × List Arg × GetoptData :=
  if (argv[d.optind]?.bind fun arg => arg[1]?) = some '-' then longOption longopts argv d
  else shortOption argv d

/-- The option that `advance` stopped at. -/
def decodeNext : List Arg × GetoptData × Option Result → Result × List Arg × GetoptData
  | (argv, d, some result) => (result, argv, d)
  | (argv, d, none) => decode longopts argv d

def getoptLong (posixlyCorrect : Bool) (argv : List Arg) (d : GetoptData) :
    Result × List Arg × GetoptData :=
  if argv = [] then (.finished, argv, d)
  else
    let d := { d with optarg := none }
    let d :=
      if d.optind = 0 ∨ d.initialized = false then
        let d := if d.optind = 0 then { d with optind := 1 } else d
        { getoptInitialize posixlyCorrect d with initialized := true }
      else d
    if d.nextchar = [] then decodeNext longopts (advance argv d)
    else decode longopts argv d

/-- The calls until there is no option left, each with its `optarg`; `fuel` bounds their number. -/
def calls (posixlyCorrect : Bool) : (fuel : Nat) → List Arg → GetoptData →
    Option (List (Result × Option Arg) × List Arg × GetoptData)
  | 0, _, _ => none
  | fuel + 1, argv, d =>
    match getoptLong longopts posixlyCorrect argv d with
    | (.finished, argv, d) => some ([], argv, d)
    | (result, argv, d) =>
      (calls posixlyCorrect fuel argv d).map fun (results, last) =>
        ((result, d.optarg) :: results, last)

end Getopt
