import Mathlib.Tactic.IntervalCases
import PoolFrontend.GetoptNames
import PoolFrontend.GetoptReading
import PoolFrontend.NodeRpc

/-!
# The methods of the node client

From the arguments of `noderpc` to the one request that its coroutine makes of the node, and to
what it prints of the answer. The node and its clients are not modelled; a run is given what the
node answers.
-/
namespace NodeMethods

open Poolcore NodeRpc
open Getopt hiding decode

/-- What the program uses of the other libraries; `init` takes the options of the log out of the
command line, or ends the process where one of them is wrong. -/
structure Environment where
  init : List Arg → Option (List Arg)
  coinLibrary : String → CoinInfo
  helpers : Server.Helpers
  xatoi : String → UInt64

inductive Level where
  | info
  | warning
  | error
  deriving DecidableEq, Repr

structure Line where
  level : Level
  text : String
  deriving DecidableEq, Repr

/-- `CNetworkClient::EOperationStatus`; the value of an error is printed by one method. -/
inductive EOperationStatus where
  | ok
  | insufficientFunds
  | verifyRejected
  | invalidAddressOrKey
  | other
  deriving DecidableEq, Repr

/-- The calls of `Client`, with what they are given. -/
inductive NodeCall where
  | getBalance
  | buildTransaction (destinationAddress changeAddress : String) (value : Int)
  | sendTransaction (txData txId : String)
  | getTxConfirmations (txId : String)
  | getBlockConfirmations (orphanAgeLimit : Nat) (hash : String) (height : UInt64)
  | getBlockExtraInfo (orphanAgeLimit : Nat) (hash : String) (height : UInt64)
  | listUnspent
  | zSendMany (source destination : String) (amount : Int) (memo : String) (minConf : UInt64)
      (fee : Int)
  | zGetBalance (address : String)
  deriving DecidableEq, Repr

structure GetBalanceResult where
  balance : Int
  immatured : Int

structure BuildTransactionResult where
  txData : String
  txId : String
  error : String
  value : Int
  fee : Int

structure TxConfirmations where
  confirmations : Int
  txFee : Int
  error : String

structure BlockExtraInfo where
  confirmations : Int
  publicHash : String
  txFee : Int
  blockReward : Int

structure Unspent where
  address : String
  amount : Int
  isCoinbase : Bool

structure ZSendMoneyResult where
  asyncOperationId : String
  error : String

/-- A call that has no status fails without a value; `%u` prints the status of `listUnspent`. -/
def NodeCall.Answer : NodeCall → Type
  | .getBalance => Option GetBalanceResult
  | .buildTransaction .. => EOperationStatus × BuildTransactionResult
  | .sendTransaction .. => EOperationStatus × String
  | .getTxConfirmations _ => EOperationStatus × TxConfirmations
  | .getBlockConfirmations .. => Option Int
  | .getBlockExtraInfo .. => Option BlockExtraInfo
  | .listUnspent => EOperationStatus × Nat × List Unspent
  | .zSendMany .. => EOperationStatus × ZSendMoneyResult
  | .zGetBalance _ => EOperationStatus × Int

structure CContext where
  coinInfo : CoinInfo
  argv : List String

/-- A coroutine ends, or waits once for the node and then prints the answer. -/
inductive Coroutine where
  | ended (lines : List Line)
  | asks (call : NodeCall) (next : call.Answer → List Line)

def info (text : String) : Line := ⟨.info, text⟩

def usage (text : String) : Coroutine := .ended [info ("Usage: " ++ text)]

variable (env : Environment)

def formatMoney (context : CContext) (value : Int) : String :=
  env.helpers.formatMoney value context.coinInfo.rationalPartSize

def parseMoneyValue (context : CContext) (text : String) : Option Int :=
  env.helpers.parseMoneyValue text context.coinInfo.rationalPartSize

/-- The arguments are not counted. -/
def getBalanceCoro (context : CContext) : Coroutine :=
  .asks .getBalance fun
    | some result => [info ("balance: " ++ formatMoney env context result.balance ++
        " immature: " ++ formatMoney env context result.immatured ++ "\n")]
    | none => [⟨.error, "ioGetBalance failed"⟩]

def printTransaction (context : CContext) (destinationAddress : String) (value : Int)
    (transaction : BuildTransactionResult) : EOperationStatus → List Line
  | .ok => [info ("txData: " ++ transaction.txData), info ("txId: " ++ transaction.txId),
      info ("real value: " ++ formatMoney env context transaction.value),
      info ("fee: " ++ formatMoney env context transaction.fee)]
  | .insufficientFunds => [info "No money left to pay"]
  | _ => [⟨.error, "Payment " ++ formatMoney env context value ++ " to " ++ destinationAddress ++
      " failed with error \"" ++ transaction.error ++ "\""⟩]

def buildTransactionCoro (context : CContext) : Coroutine :=
  match context.argv with
  | [destinationAddress, changeAddress, amount] =>
    if env.helpers.checkAddress context.coinInfo destinationAddress
        context.coinInfo.payoutAddressType then
      match parseMoneyValue env context amount with
      | some value =>
        .asks (.buildTransaction destinationAddress changeAddress value) fun answer =>
          printTransaction env context destinationAddress value answer.2 answer.1
      | none => .ended [info ("Invalid amount: " ++ amount ++ " " ++ context.coinInfo.name)]
    else
      .ended [info ("Invalid " ++ context.coinInfo.name ++ " address: " ++ destinationAddress)]
  | _ => usage "buildTransaction <address> <change_address> <amount>"

def printSending (txData error : String) : EOperationStatus → List Line
  | .ok => [info "sending ok"]
  | .verifyRejected => [⟨.error, "Transaction " ++ txData ++ " rejected"⟩]
  | _ => [⟨.warning, "Sending transaction " ++ txData ++ " error \"" ++ error ++
      "\", will try send later..."⟩]

def sendTransactionCoro (context : CContext) : Coroutine :=
  match context.argv with
  | [txData, txId] =>
    .asks (.sendTransaction txData txId) fun answer => printSending txData answer.2 answer.1
  | _ => usage "sendTransaction <txdata> <txid>"

def printConfirmations (context : CContext) (txId : String) (result : TxConfirmations) :
    EOperationStatus → List Line
  | .ok => [info ("Confirmations: " ++ toString result.confirmations),
      info ("Fee: " ++ formatMoney env context result.txFee ++ "\n")]
  | .invalidAddressOrKey =>
    [⟨.error, "Transaction " ++ txId ++ " not included in block, will try resend"⟩]
  | _ => [⟨.warning, "Transaction " ++ txId ++ " checkong error \"" ++ result.error ++
      "\", will try later..."⟩]

def getTxConfirmationsCoro (context : CContext) : Coroutine :=
  match context.argv with
  | [txId] =>
    .asks (.getTxConfirmations txId) fun answer =>
      printConfirmations env context txId answer.2 answer.1
  | _ => usage "getTxConfirmations <txid>"

def getBlockConfirmationCoro (context : CContext) : Coroutine :=
  match context.argv with
  | [blockHash, blockHeight] =>
    .asks (.getBlockConfirmations 0 blockHash (env.xatoi blockHeight)) fun
      | some confirmations => [info ("confirmations: " ++ toString confirmations)]
      | none => [⟨.error, "can't get confirmations for " ++ blockHash⟩]
  | _ => usage "getBlockConfirmation <hash> <height>"

def getBlockExtraInfoCoro (context : CContext) : Coroutine :=
  match context.argv with
  | [blockHash, blockHeight] =>
    .asks (.getBlockExtraInfo 0 blockHash (env.xatoi blockHeight)) fun
      | some element => [info ("confirmations: " ++ toString element.confirmations),
          info ("public hash: " ++ element.publicHash),
          info ("tx fee: " ++ formatMoney env context element.txFee),
          info ("block reward: " ++ formatMoney env context element.blockReward)]
      | none => [⟨.error, "can't get confirmations for " ++ blockHash⟩]
  | _ => usage "getBlockExtraInfo <hash> <height>"

def printOutput (context : CContext) (output : Unspent) : Line :=
  info (output.address ++ ": " ++ formatMoney env context output.amount ++ "; isCoinbase: " ++
    if output.isCoinbase then "yes" else "no")

def listUnspentCoro (context : CContext) : Coroutine :=
  match context.argv with
  | [] =>
    .asks .listUnspent fun
      | (.ok, _, outs) => info "Unspent outputs:" :: outs.map (printOutput env context)
      | (_, code, _) => [⟨.error, "listUnspent error " ++ toString code⟩]
  | _ => usage "listUnspent"

def zsendManyCoro (context : CContext) : Coroutine :=
  match context.argv with
  | [source, destination, amountText, memo, minConf, feeText] =>
    match parseMoneyValue env context amountText with
    | none => .ended [⟨.error, "Can't parse amount value " ++ amountText⟩]
    | some amount =>
      match parseMoneyValue env context feeText with
      | none => .ended [⟨.error, "Can't parse fee value " ++ feeText⟩]
      | some fee =>
        .asks (.zSendMany source destination amount memo (env.xatoi minConf) fee) fun
          | (.ok, result) => [info ("AsyncOp ID: " ++ result.asyncOperationId)]
          | (_, result) => [⟨.error, "zsendMany error: " ++ result.error⟩]
  | _ => usage "zsendMany <source> <destination> <amount> <memo> <minconf> <fee>"

def zgetBalanceCoro (context : CContext) : Coroutine :=
  match context.argv with
  | [address] =>
    .asks (.zGetBalance address) fun
      | (.ok, balance) => [info ("balance: " ++ formatMoney env context balance)]
      | (_, _) => [⟨.error, "zgetBalance error"⟩]
  | _ => usage "zgetBalance <address>"

/-- The chain of comparisons with the method. -/
def coroutineOf (context : CContext) : (method : String) → Option Coroutine
  | "getBalance" => some (getBalanceCoro env context)
  | "buildTransaction" => some (buildTransactionCoro env context)
  | "sendTransaction" => some (sendTransactionCoro context)
  | "getTxConfirmations" => some (getTxConfirmationsCoro env context)
  | "getBlockConfirmation" => some (getBlockConfirmationCoro env context)
  | "getBlockExtraInfo" => some (getBlockExtraInfoCoro env context)
  | "listUnspent" => some (listUnspentCoro env context)
  | "zsendMany" => some (zsendManyCoro env context)
  | "zgetBalance" => some (zgetBalanceCoro env context)
  | _ => none

def cmdLineOpts : List LongOption :=
  [⟨"help".toList, .noArgument, none, 1⟩,
    ⟨"node".toList, .requiredArgument, none, 2⟩,
    ⟨"coin".toList, .requiredArgument, none, 3⟩,
    ⟨"address".toList, .requiredArgument, none, 4⟩,
    ⟨"user".toList, .requiredArgument, none, 5⟩,
    ⟨"password".toList, .requiredArgument, none, 6⟩,
    ⟨"wallet".toList, .requiredArgument, none, 7⟩,
    ⟨"method".toList, .requiredArgument, none, 8⟩,
    ⟨"mining-addresses".toList, .requiredArgument, none, 9⟩,
    ⟨"private-keys".toList, .requiredArgument, none, 10⟩]

/-- The cases of the switch; the argument of an option that has one is never null. -/
def caseOf : Result → Option Arg → Option CmdLineOpt
  | .finished, _ => none
  | .unknown, _ => some .unknown
  -- the value is that of `--help`
  | .argument, _ => some .help
  | .found _ 1, _ => some .help
  | .found _ 2, optarg => optarg.map fun arg => .node (String.ofList arg)
  | .found _ 3, optarg => optarg.map fun arg => .coin (String.ofList arg)
  | .found _ 4, optarg => optarg.map fun arg => .address (String.ofList arg)
  | .found _ 5, optarg => optarg.map fun arg => .user (String.ofList arg)
  | .found _ 6, optarg => optarg.map fun arg => .password (String.ofList arg)
  | .found _ 7, optarg => optarg.map fun arg => .wallet (String.ofList arg)
  | .found _ 8, optarg => optarg.map fun arg => .method (String.ofList arg)
  | .found _ 9, optarg => optarg.map fun arg => .miningAddresses (String.ofList arg)
  | .found _ 10, optarg => optarg.map fun arg => .privateKeys (String.ofList arg)
  | .found _ _, _ => some .other
  | .stored .., _ => some .other

/-- Two of the cases end the program. -/
def endsOr (next : Option (Parsed × List Arg)) : CmdLineOpt → Option (Parsed × List Arg)
  | .help => some (.help, [])
  | .unknown => some (.invalid, [])
  | _ => next

/-- The loop over the options, with the arguments it leaves; `fuel` bounds its rounds. -/
def parseArgs (posixlyCorrect : Bool) : (fuel : Nat) → List Arg → GetoptData → Options →
    Option (Parsed × List Arg)
  | 0, _, _, _ => none
  | fuel + 1, argv, d, options =>
    match getoptLong cmdLineOpts posixlyCorrect argv d with
    | (.finished, argv, d) => some (.options options, argv.drop d.optind)
    | (result, argv, d) => do
      let opt ← caseOf result d.optarg
      endsOr (parseArgs posixlyCorrect fuel argv d (options.store opt)) opt

/-- How the process ends, what it asked of the node and what it printed. -/
structure Ended where
  exit : Nat
  asked : List NodeCall
  lines : List Line

def Coroutine.run (node : (call : NodeCall) → call.Answer) : Coroutine → Ended
  | .ended lines => ⟨0, [], lines⟩
  | .asks call next => ⟨0, [call], next (node call)⟩

def failed (text : String) : Ended := ⟨1, [], [⟨.error, text⟩]⟩

/-- From the options to the end of the event loop, which the coroutine posts. -/
def call (node : Client → (call : NodeCall) → call.Answer) (options : Options)
    (operands : List Arg) : Option Ended := do
  match ← (start env.coinLibrary options).run with
  | .error text => return failed text
  | .ok client =>
    let context : CContext := ⟨env.coinLibrary options.coin, operands.map String.ofList⟩
    return (coroutineOf env context options.method).elim
      (failed ("Unknown method: " ++ options.method)) (Coroutine.run (node client))

/-- Each round reads a character of the arguments. -/
def rounds (argv : List Arg) : Nat := (argv.map List.length).sum + 1

/-- What follows the loop over the options. -/
def afterOptions (node : Client → (call : NodeCall) → call.Answer) :
    Parsed × List Arg → Option Ended
  | (.help, _) => some ⟨0, [], [info "noderpc usage:
"]⟩
  | (.invalid, _) => some ⟨1, [], []⟩
  | (.options options, operands) => call env node options operands

def main (node : Client → (call : NodeCall) → call.Answer) (posixlyCorrect : Bool)
    (argv : List Arg) : Option Ended := do
  let argv ← env.init argv
  let parsed ← parseArgs posixlyCorrect (rounds argv) argv {} {}
  afterOptions env node parsed

theorem cmdLineOpts_kinds : ∀ p ∈ cmdLineOpts,
    p.flag = none ∧ (p.hasArg = .noArgument ∧ p.val = 1 ∨
      p.hasArg = .requiredArgument ∧ 2 ≤ p.val ∧ p.val ≤ 10) := by
  decide

theorem caseOf_found (index : Nat) {p : LongOption} (hp : p ∈ cmdLineOpts) {optarg : Option Arg}
    (hoptarg : p.hasArg = .requiredArgument → ∃ arg, optarg = some arg) :
    ∃ opt, caseOf (p.result index) optarg = some opt := by
  obtain ⟨hflag, hkind⟩ := cmdLineOpts_kinds p hp
  simp only [LongOption.result, hflag]
  rcases hkind with ⟨-, hval⟩ | ⟨hrequired, hlow, hhigh⟩
  · exact ⟨.help, by rw [hval, caseOf]⟩
  · obtain ⟨arg, rfl⟩ := hoptarg hrequired
    generalize p.val = val at hlow hhigh ⊢
    interval_cases val <;> exact ⟨_, rfl⟩

theorem resolve_mem {longopts : List LongOption} {key : Arg} {index : Nat} {p : LongOption}
    (h : resolve longopts key = some (index, p)) : p ∈ longopts := by
  cases resolve_stands longopts h with
  | name before after table => simp [table]
  | abbreviation before after table => simp [table]

/-- An option that is found has its argument. -/
theorem caseOf_readLong (value : Arg) (next : Option Arg) (key : Arg) :
    ∃ opt, caseOf (readLong value next (resolve cmdLineOpts key)).1.1
      (readLong value next (resolve cmdLineOpts key)).1.2 = some opt := by
  cases hresolve : resolve cmdLineOpts key with
  | none => exact ⟨.unknown, rfl⟩
  | some entry =>
    obtain ⟨index, p⟩ := entry
    have hp := resolve_mem hresolve
    by_cases hvalue : value = []
    · by_cases hrequired : p.hasArg = .requiredArgument
      · cases next with
        | none => exact ⟨.unknown, by simp [readLong, hvalue, hrequired, caseOf]⟩
        | some arg =>
          simp only [readLong, hvalue, hrequired, ne_eq, not_true_eq_false, if_false, if_true]
          exact caseOf_found index hp fun _ => ⟨arg, rfl⟩
      · simp only [readLong, hvalue, hrequired, ne_eq, not_true_eq_false, if_false]
        exact caseOf_found index hp fun h => (hrequired h).elim
    · by_cases hnone : p.hasArg = .noArgument
      · exact ⟨.unknown, by simp [readLong, hvalue, hnone, caseOf]⟩
      · simp only [readLong, hvalue, hnone, ne_eq, not_false_eq_true, if_true]
        exact caseOf_found index hp fun _ => ⟨_, rfl⟩

theorem caseOf_readOption (arg : Arg) (next : Option Arg) :
    ∀ x ∈ (readOption cmdLineOpts next arg).1, ∃ opt, caseOf x.1 x.2 = some opt := by
  unfold readOption
  split
  · intro x hx
    rw [List.mem_singleton.mp hx]
    exact caseOf_readLong _ _ _
  · intro x hx
    obtain ⟨c, _, rfl⟩ := List.mem_map.mp hx
    exact ⟨.unknown, rfl⟩

theorem caseOf_reading (posixlyCorrect : Bool) (args : List Arg) :
    ∀ x ∈ (reading cmdLineOpts posixlyCorrect args).results,
      ∃ opt, caseOf x.1 x.2 = some opt := by
  induction args using reading.induct cmdLineOpts posixlyCorrect with
  | case1 => simp [reading]
  | case2 rest => simp [reading]
  | case3 arg rest hdashes hnonoption hposix => simp [reading, hdashes, hnonoption, hposix]
  | case4 arg rest hdashes hnonoption hposix ih =>
    rw [reading, if_neg hdashes, if_pos hnonoption, if_neg hposix]
    exact ih
  | case5 arg rest hdashes hnonoption read n hread ih =>
    rw [reading, if_neg hdashes, if_neg hnonoption, hread]
    intro x hx
    rcases List.mem_append.mp hx with hfirst | hrest
    · have hall := caseOf_readOption arg rest.head?
      rw [hread] at hall
      exact hall x hfirst
    · exact ih x hrest

/-- The cases that the loop goes through. -/
def optsOf (results : List (Result × Option Arg)) : List CmdLineOpt :=
  results.filterMap fun x => caseOf x.1 x.2

/-- The operands matter when the loop comes to its end. -/
def withOperands (operands : List Arg) : Parsed → Parsed × List Arg
  | .options options => (.options options, operands)
  | parsed => (parsed, [])

theorem parseArgs_option {posixlyCorrect : Bool} {argv argv' : List Arg} {d d' : GetoptData}
    {result : Result} {opt : CmdLineOpt}
    (hcall : getoptLong cmdLineOpts posixlyCorrect argv d = (result, argv', d'))
    (hfinished : result ≠ .finished) (hcase : caseOf result d'.optarg = some opt) (fuel : Nat)
    (options : Options) :
    parseArgs posixlyCorrect (fuel + 1) argv d options =
      endsOr (parseArgs posixlyCorrect fuel argv' d' (options.store opt)) opt := by
  rw [parseArgs, hcall]
  cases result with
  | finished => exact (hfinished rfl).elim
  | _ =>
    simp only [hcase]
    rfl

theorem parseArgs_calls {posixlyCorrect : Bool} {fuel : Nat} {argv last : List Arg}
    {d e : GetoptData} {results : List (Result × Option Arg)}
    (h : calls cmdLineOpts posixlyCorrect fuel argv d = some (results, last, e))
    (hcases : ∀ x ∈ results, ∃ opt, caseOf x.1 x.2 = some opt) (options : Options) :
    parseArgs posixlyCorrect fuel argv d options =
      some (withOperands (last.drop e.optind) (parseCommandLine (optsOf results) options)) := by
  induction fuel generalizing argv d results options with
  | zero => cases h
  | succ fuel ih =>
    rw [calls_succ] at h
    cases hcall : getoptLong cmdLineOpts posixlyCorrect argv d with
    | mk result state =>
      obtain ⟨argv', d'⟩ := state
      rw [hcall] at h
      by_cases hfinished : result = .finished
      · subst hfinished
        cases h
        rw [parseArgs, hcall]
        rfl
      · rw [after_option cmdLineOpts hfinished, Option.map_eq_some_iff] at h
        obtain ⟨⟨others, _, _⟩, hcalls, hall⟩ := h
        cases hall
        obtain ⟨opt, hopt⟩ := hcases (result, d'.optarg) (by simp)
        have hothers := ih hcalls fun x hx => hcases x (List.mem_append_right _ hx)
        have hopts : optsOf ([(result, d'.optarg)] ++ others) = opt :: optsOf others := by
          simp only [optsOf, List.singleton_append, List.filterMap_cons, hopt]
        rw [parseArgs_option hcall hfinished hopt, hopts, hothers]
        cases opt <;> rfl

/-- No argument is read as more options than it has characters. -/
theorem readOption_length (next : Option Arg) (arg : Arg) :
    (readOption cmdLineOpts next arg).1.length ≤ arg.length := by
  unfold readOption
  split
  · simp
  · simp

theorem reading_length (posixlyCorrect : Bool) (args : List Arg) :
    (reading cmdLineOpts posixlyCorrect args).results.length ≤ (args.map List.length).sum := by
  induction args using reading.induct cmdLineOpts posixlyCorrect with
  | case1 => simp [reading]
  | case2 rest => simp [reading]
  | case3 arg rest hdashes hnonoption hposix => simp [reading, hdashes, hnonoption, hposix]
  | case4 arg rest hdashes hnonoption hposix ih =>
    rw [reading, if_neg hdashes, if_pos hnonoption, if_neg hposix, List.map_cons, List.sum_cons]
    exact ih.trans (Nat.le_add_left _ _)
  | case5 arg rest hdashes hnonoption read n hread ih =>
    have hfirst := readOption_length rest.head? arg
    have hsplit := congrArg (fun xs => (xs.map List.length).sum) (List.take_append_drop n rest)
    simp only [List.map_append, List.sum_append] at hsplit
    rw [reading, if_neg hdashes, if_neg hnonoption, hread, List.map_cons, List.sum_cons]
    rw [hread] at hfirst
    simp only [Reading.option, List.length_append] at hfirst ⊢
    omega

/-- The loop comes to its end on every command line. -/
theorem parseArgs_reading (posixlyCorrect : Bool) (program : Arg) (args : List Arg) :
    parseArgs posixlyCorrect (rounds (program :: args)) (program :: args) {} {} =
      some (withOperands (reading cmdLineOpts posixlyCorrect args).operands
        (parseCommandLine (optsOf (reading cmdLineOpts posixlyCorrect args).results) {})) := by
  have hlength := reading_length posixlyCorrect args
  obtain ⟨k, hk⟩ : ∃ k, rounds (program :: args) =
      (reading cmdLineOpts posixlyCorrect args).results.length + 1 + k := by
    apply Nat.exists_eq_add_of_le
    rw [rounds, List.map_cons, List.sum_cons]
    omega
  obtain ⟨d, hcalls, hoptind⟩ := calls_reading cmdLineOpts posixlyCorrect program args k
  rw [hk, parseArgs_calls hcalls (caseOf_reading posixlyCorrect args), hoptind]
  simp

/-- A method and its operands spell a request. -/
inductive Request (coin : CoinInfo) : String → List String → NodeCall → Prop
  | getBalance (operands : List String) : Request coin "getBalance" operands .getBalance
  | buildTransaction {destination change amount : String} {value : Int}
      (address : env.helpers.checkAddress coin destination coin.payoutAddressType = true)
      (money : env.helpers.parseMoneyValue amount coin.rationalPartSize = some value) :
      Request coin "buildTransaction" [destination, change, amount]
        (.buildTransaction destination change value)
  | sendTransaction (txData txId : String) :
      Request coin "sendTransaction" [txData, txId] (.sendTransaction txData txId)
  | getTxConfirmations (txId : String) :
      Request coin "getTxConfirmations" [txId] (.getTxConfirmations txId)
  | getBlockConfirmation (hash height : String) :
      Request coin "getBlockConfirmation" [hash, height]
        (.getBlockConfirmations 0 hash (env.xatoi height))
  | getBlockExtraInfo (hash height : String) :
      Request coin "getBlockExtraInfo" [hash, height] (.getBlockExtraInfo 0 hash (env.xatoi height))
  | listUnspent : Request coin "listUnspent" [] .listUnspent
  | zsendMany {source destination amountText memo minConf feeText : String} {amount fee : Int}
      (money : env.helpers.parseMoneyValue amountText coin.rationalPartSize = some amount)
      (charge : env.helpers.parseMoneyValue feeText coin.rationalPartSize = some fee) :
      Request coin "zsendMany" [source, destination, amountText, memo, minConf, feeText]
        (.zSendMany source destination amount memo (env.xatoi minConf) fee)
  | zgetBalance (address : String) :
      Request coin "zgetBalance" [address] (.zGetBalance address)

/-- The call a coroutine waits for. -/
def Coroutine.asked : Coroutine → List NodeCall
  | .ended _ => []
  | .asks call _ => [call]

theorem run_asked (coroutine : Coroutine) (node : (call : NodeCall) → call.Answer) :
    (coroutine.run node).asked = coroutine.asked := by
  cases coroutine <;> rfl

/-- A request that is spelt is asked. -/
theorem request_asked {coin : CoinInfo} {operands : List String} {method : String}
    {call : NodeCall} (h : Request env coin method operands call) :
    ∃ next, coroutineOf env ⟨coin, operands⟩ method = some (.asks call next) := by
  cases h with
  | buildTransaction address money =>
    apply Exists.intro
    simp only [coroutineOf, buildTransactionCoro, parseMoneyValue, address, money, if_true]
    rfl
  | zsendMany money charge =>
    apply Exists.intro
    simp only [coroutineOf, zsendManyCoro, parseMoneyValue, money, charge]
    rfl
  | _ => exact ⟨_, rfl⟩

theorem buildTransaction_asked {context : CContext} {call : NodeCall}
    (h : call ∈ (buildTransactionCoro env context).asked) :
    Request env context.coinInfo "buildTransaction" context.argv call := by
  unfold buildTransactionCoro at h
  split at h
  · rename_i hargv
    rw [hargv]
    split at h
    · rename_i address
      split at h
      · rename_i money
        rw [List.mem_singleton.mp h]
        exact .buildTransaction address money
      · cases h
    · cases h
  · cases h

theorem zsendMany_asked {context : CContext} {call : NodeCall}
    (h : call ∈ (zsendManyCoro env context).asked) :
    Request env context.coinInfo "zsendMany" context.argv call := by
  unfold zsendManyCoro at h
  split at h
  · rename_i hargv
    rw [hargv]
    split at h
    · cases h
    · rename_i money
      split at h
      · cases h
      · rename_i charge
        rw [List.mem_singleton.mp h]
        exact .zsendMany money charge
  · cases h

theorem asked_request {coin : CoinInfo} {operands : List String} {method : String}
    {coroutine : Coroutine} (h : coroutineOf env ⟨coin, operands⟩ method = some coroutine)
    {call : NodeCall} (hasked : call ∈ coroutine.asked) :
    Request env coin method operands call := by
  unfold coroutineOf at h
  split at h
  all_goals cases h
  case h_1 =>
    rw [List.mem_singleton.mp hasked]
    exact .getBalance operands
  case h_2 => exact buildTransaction_asked env hasked
  case h_7 =>
    cases operands with
    | nil =>
      rw [List.mem_singleton.mp hasked]
      exact .listUnspent
    | cons operand operands => cases hasked
  case h_8 => exact zsendMany_asked env hasked
  -- the others ask as soon as the number of their operands is right
  all_goals
    simp only [sendTransactionCoro, getTxConfirmationsCoro, getBlockConfirmationCoro,
      getBlockExtraInfoCoro, zgetBalanceCoro] at hasked
    split at hasked
    · rename_i hargv
      cases hargv
      rw [List.mem_singleton.mp hasked]
      constructor
    · cases hasked

theorem coroutineOf_methods (context : CContext) {method : String} (h : method ∈ methods) :
    ∃ coroutine, coroutineOf env context method = some coroutine := by
  simp only [methods, List.mem_cons, List.not_mem_nil, or_false] at h
  rcases h with rfl | rfl | rfl | rfl | rfl | rfl | rfl | rfl | rfl <;> exact ⟨_, rfl⟩

/-- The method is checked before the options start anything. -/
theorem start_method {coinLibrary : String → CoinInfo} {options : Options} {client : Client}
    (h : start coinLibrary options = pure client) : options.method ∈ methods := by
  unfold start at h
  split at h
  · cases h
  split at h
  · cases h
  split at h
  · cases h
  split at h
  · cases h
  obtain ⟨created, _, h⟩ := MainSetup.bind_completes h
  split at h
  · rename_i hmethod
    exact hmethod
  · cases h

theorem asked_iff_request {coin : CoinInfo} {operands : List String} {method : String}
    {coroutine : Coroutine} (h : coroutineOf env ⟨coin, operands⟩ method = some coroutine)
    (call : NodeCall) : call ∈ coroutine.asked ↔ Request env coin method operands call := by
  constructor
  · exact asked_request env h
  · intro hrequest
    obtain ⟨next, hasks⟩ := request_asked env hrequest
    rw [h] at hasks
    cases hasks
    exact List.mem_singleton_self _

theorem main_failed {coinLibrary : String → CoinInfo} {opts : List CmdLineOpt}
    {options : Options} {text : String} (hparse : parseCommandLine opts {} = .options options)
    (h : start coinLibrary options = throw text) :
    NodeRpc.main coinLibrary opts = some (.failed text) := by
  rw [NodeRpc.main, hparse]
  simp only [h]
  rfl

theorem main_started {coinLibrary : String → CoinInfo} {opts : List CmdLineOpt}
    {options : Options} {client : Client} (hparse : parseCommandLine opts {} = .options options)
    (h : start coinLibrary options = pure client) :
    NodeRpc.main coinLibrary opts = some (.started options client) := by
  rw [NodeRpc.main, hparse]
  simp only [h]
  rfl

/-- A call that the options and the operands of a command line spell. -/
def Spelt (opts : List CmdLineOpt) (operands : List Arg) (request : NodeCall) : Prop :=
  ∃ options client, NodeRpc.main env.coinLibrary opts = some (.started options client) ∧
    Request env (env.coinLibrary options.coin) options.method (operands.map String.ofList) request

theorem call_asked (node : Client → (call : NodeCall) → call.Answer) {opts : List CmdLineOpt}
    {options : Options} (hparse : parseCommandLine opts {} = .options options)
    (operands : List Arg) :
    ∃ ended, call env node options operands = some ended ∧ ended.asked.length ≤ 1 ∧
      ∀ request, request ∈ ended.asked ↔ Spelt env opts operands request := by
  obtain ⟨haddresses, hkeys⟩ := parse_lists hparse
  cases start_settled env.coinLibrary haddresses hkeys with
  | inl hthrow =>
    obtain ⟨text, htext⟩ := hthrow
    refine ⟨failed text, by simp only [call, htext]; rfl, Nat.zero_le _, ?_⟩
    intro request
    rw [Spelt, main_failed hparse htext]
    simp [failed]
  | inr hpure =>
    obtain ⟨client, hclient, -⟩ := hpure
    obtain ⟨coroutine, hcoroutine⟩ :=
      coroutineOf_methods env ⟨env.coinLibrary options.coin, operands.map String.ofList⟩
        (start_method hclient)
    have hcall : call env node options operands = some (coroutine.run (node client)) := by
      simp only [call, hclient, hcoroutine]
      rfl
    refine ⟨_, hcall, ?_, ?_⟩
    · rw [run_asked]
      cases coroutine with
      | ended lines => exact Nat.zero_le _
      | asks call next => exact Nat.le_refl _
    · intro request
      rw [run_asked, asked_iff_request env hcoroutine, Spelt, main_started hparse hclient]
      constructor
      · intro hrequest
        exact ⟨options, client, rfl, hrequest⟩
      · rintro ⟨_, _, hstarted, hrequest⟩
        cases hstarted
        exact hrequest

theorem main_parseArgs (node : Client → (call : NodeCall) → call.Answer) (posixlyCorrect : Bool)
    {argv args : List Arg} {program : Arg} (hinit : env.init argv = some (program :: args)) :
    main env node posixlyCorrect argv =
      afterOptions env node (withOperands (reading cmdLineOpts posixlyCorrect args).operands
        (parseCommandLine (optsOf (reading cmdLineOpts posixlyCorrect args).results) {})) := by
  simp only [main, hinit, Option.bind_eq_bind, Option.bind_some, parseArgs_reading]

/-- Every command line that the log leaves ends, and asks the node at most one request: the one
that its method and its operands spell, as they are given, and none where an option, an argument
or their number is wrong. -/
theorem asks_spelt (node : Client → (call : NodeCall) → call.Answer) (posixlyCorrect : Bool)
    {argv args : List Arg} {program : Arg} (hinit : env.init argv = some (program :: args)) :
    ∃ ended, main env node posixlyCorrect argv = some ended ∧
      ended.asked.length ≤ 1 ∧ ∀ request, request ∈ ended.asked ↔
        Spelt env (optsOf (reading cmdLineOpts posixlyCorrect args).results)
          (reading cmdLineOpts posixlyCorrect args).operands request := by
  cases hparse : parseCommandLine
      (optsOf (reading cmdLineOpts posixlyCorrect args).results) {} with
  | help =>
    refine ⟨⟨0, [], _⟩, by rw [main_parseArgs env node _ hinit, hparse]; rfl, Nat.zero_le _, ?_⟩
    simp [Spelt, NodeRpc.main, hparse]
  | invalid =>
    refine ⟨⟨1, [], _⟩, by rw [main_parseArgs env node _ hinit, hparse]; rfl, Nat.zero_le _, ?_⟩
    simp [Spelt, NodeRpc.main, hparse]
  | options options =>
    rw [main_parseArgs env node _ hinit, hparse]
    exact call_asked env node hparse _

/-- A command line without options of the log is left as it is. -/
def sampleEnvironment : Environment where
  init := some
  coinLibrary name := ⟨name, name, "sha256", 100000000, 1, 0, 0, 1⟩
  helpers := Server.emptyServer.helpers
  xatoi _ := 0

/-- A node that fails. -/
def sampleAnswer : (call : NodeCall) → call.Answer
  | .getBalance => none
  | .buildTransaction .. => (.other, ⟨"", "", "", 0, 0⟩)
  | .sendTransaction .. => (.other, "")
  | .getTxConfirmations _ => (.other, ⟨0, 0, ""⟩)
  | .getBlockConfirmations .. => none
  | .getBlockExtraInfo .. => none
  | .listUnspent => (.other, 0, [])
  | .zSendMany .. => (.other, ⟨"", ""⟩)
  | .zGetBalance _ => (.other, 0)

def balanceOptions : List Arg :=
  ["--node=bitcoinrpc".toList, "--coin=BTC".toList, "--address=localhost".toList,
    "--method=zgetBalance".toList]

theorem balanceOptions_first : reading cmdLineOpts false (balanceOptions ++ ["z".toList]) =
    ⟨[(.found 1 2, some "bitcoinrpc".toList), (.found 2 3, some "BTC".toList),
      (.found 3 4, some "localhost".toList), (.found 7 8, some "zgetBalance".toList)],
      balanceOptions, ["z".toList]⟩ := by
  simp [balanceOptions, cmdLineOpts, reading, readOption, readLong, resolve, search, nonoption,
    dashes, Reading.operand, Reading.option, LongOption.result]

theorem asks_spelt_balance : ∃ ended,
    main sampleEnvironment (fun _ _ => sampleAnswer _) false
        ("noderpc".toList :: (balanceOptions ++ ["z".toList])) = some ended ∧
      ended.asked.length ≤ 1 ∧ .zGetBalance "z" ∈ ended.asked := by
  have hinit : sampleEnvironment.init ("noderpc".toList :: (balanceOptions ++ ["z".toList])) =
      some ("noderpc".toList :: (balanceOptions ++ ["z".toList])) := rfl
  obtain ⟨ended, hended, hone, hasked⟩ :=
    asks_spelt sampleEnvironment (fun _ _ => sampleAnswer _) false hinit
  refine ⟨ended, hended, hone, (hasked _).mpr ?_⟩
  rw [balanceOptions_first]
  exact ⟨_, _, rfl, .zgetBalance "z"⟩

/-- Where the options come among the other arguments does not matter, if all are known. -/
theorem order_irrelevant (node : Client → (call : NodeCall) → call.Answer)
    (posixlyCorrect : Bool) {argv argv' args args' : List Arg} {program program' : Arg}
    (hinit : env.init argv = some (program :: args))
    (hinit' : env.init argv' = some (program' :: args'))
    (hknown : ∀ x ∈ (reading cmdLineOpts posixlyCorrect args).results, x.1 ≠ .unknown)
    (hknown' : ∀ x ∈ (reading cmdLineOpts posixlyCorrect args').results, x.1 ≠ .unknown)
    (hoptions : (reading cmdLineOpts posixlyCorrect args).options =
      (reading cmdLineOpts posixlyCorrect args').options)
    (hoperands : (reading cmdLineOpts posixlyCorrect args).operands =
      (reading cmdLineOpts posixlyCorrect args').operands) :
    main env node posixlyCorrect argv = main env node posixlyCorrect argv' := by
  have hsame : reading cmdLineOpts posixlyCorrect args =
      reading cmdLineOpts posixlyCorrect args' := by
    rw [← reading_normal cmdLineOpts posixlyCorrect hknown, hoptions, hoperands,
      reading_normal cmdLineOpts posixlyCorrect hknown']
  rw [main_parseArgs env node _ hinit, main_parseArgs env node _ hinit', hsame]

theorem balanceOptions_last : reading cmdLineOpts false ("z".toList :: balanceOptions) =
    ⟨[(.found 1 2, some "bitcoinrpc".toList), (.found 2 3, some "BTC".toList),
      (.found 3 4, some "localhost".toList), (.found 7 8, some "zgetBalance".toList)],
      balanceOptions, ["z".toList]⟩ := by
  simp [balanceOptions, cmdLineOpts, reading, readOption, readLong, resolve, search, nonoption,
    dashes, Reading.operand, Reading.option, LongOption.result]

theorem order_irrelevant_balance :
    main sampleEnvironment (fun _ _ => sampleAnswer _) false
        ("noderpc".toList :: (balanceOptions ++ ["z".toList])) =
      main sampleEnvironment (fun _ _ => sampleAnswer _) false
        ("noderpc".toList :: "z".toList :: balanceOptions) :=
  order_irrelevant _ _ false rfl rfl (by rw [balanceOptions_first]; simp)
    (by rw [balanceOptions_last]; simp) (by rw [balanceOptions_first, balanceOptions_last])
    (by rw [balanceOptions_first, balanceOptions_last])

end NodeMethods
