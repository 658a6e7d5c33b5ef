import PoolFrontend.MainSetup

/-!
# The node client on the command line

`noderpc` calls one method of a node. Its lists of addresses and keys are split at commas, and
a node of Ethereum gets each address with the key at its place.
-/
namespace NodeRpc

open Poolcore
open MainSetup (Setup)

/-- The loop of both list options: a piece ends at the next comma, or at the end. -/
def appendPieces (p : List Char) (list : List String) : List String :=
  if ',' ∈ p then
    appendPieces (p.dropWhile (· ≠ ',')).tail
      (list ++ [String.ofList (p.takeWhile (· ≠ ','))])
  else list ++ [String.ofList p]
termination_by p.length
decreasing_by
  rename_i hcomma
  have hpos := List.length_pos_of_mem hcomma
  have hle := (List.dropWhile_suffix (l := p) (· ≠ ',')).length_le
  rw [List.length_tail]
  omega

def pieces (s : String) : List String := appendPieces s.toList []

/-- The pieces have no comma, there is one more of them than commas, and with single commas in
between they are the string. -/
structure Split (s : String) (pieces : List String) : Prop where
  commaFree : ∀ piece ∈ pieces, ',' ∉ piece.toList
  joined : ",".intercalate pieces = s
  count : pieces.length = s.toList.count ',' + 1

theorem splitOn_commaFree (p : List Char) : ∀ piece ∈ p.splitOn ',', ',' ∉ piece := by
  induction p with
  | nil => simp
  | cons c rest ih =>
    rw [List.splitOn_cons_eq_if_modifyHead]
    by_cases hcomma : c = ','
    · simpa [hcomma] using ih
    · obtain ⟨first, others, hsplit⟩ := List.exists_cons_of_ne_nil (List.splitOn_ne_nil ',' rest)
      rw [hsplit] at ih ⊢
      have hne : ¬ ',' = c := fun heq => hcomma heq.symm
      simpa [hcomma, hne] using ih

theorem splitOn_length (p : List Char) : (p.splitOn ',').length = p.count ',' + 1 := by
  induction p with
  | nil => simp
  | cons c rest ih =>
    rw [List.splitOn_cons_eq_if_modifyHead, List.count_cons]
    by_cases hcomma : c = ','
    · simp [hcomma, ih]
    · simp [hcomma, ih]

/-- A list with a comma is what is in front of the first one, the comma, and the rest. -/
theorem parts_of_mem {p : List Char} (h : ',' ∈ p) :
    p.takeWhile (· ≠ ',') ++ ',' :: (p.dropWhile (· ≠ ',')).tail = p := by
  induction p with
  | nil => cases h
  | cons c rest ih =>
    by_cases hcomma : c = ','
    · simp [hcomma]
    · have hmem : ',' ∈ rest := (List.mem_cons.mp h).resolve_left fun heq => hcomma heq.symm
      simpa [hcomma] using ih hmem

/-- The loop appends the pieces of the library's split. -/
theorem appendPieces_splitOn (p : List Char) (list : List String) :
    appendPieces p list = list ++ (p.splitOn ',').map String.ofList := by
  induction p, list using appendPieces.induct with
  | case1 p list hcomma ih =>
    have hfree : ',' ∉ p.takeWhile (· ≠ ',') := by
      intro hmem
      have hne := List.mem_takeWhile_imp hmem
      simp at hne
    have hsplit : p.splitOn ',' =
        p.takeWhile (· ≠ ',') :: (p.dropWhile (· ≠ ',')).tail.splitOn ',' := by
      rw [← List.splitOn_append_cons_self_of_not_mem hfree, parts_of_mem hcomma]
    rw [appendPieces, if_pos hcomma, ih, hsplit, List.map_cons, List.append_assoc]
    rfl
  | case2 p list hcomma =>
    rw [appendPieces, if_neg hcomma, List.splitOn_eq_singleton hcomma]
    rfl

theorem pieces_splitOn (s : String) : pieces s = (s.toList.splitOn ',').map String.ofList :=
  appendPieces_splitOn s.toList []

/-- The loop splits every string. -/
theorem pieces_split (s : String) : Split s (pieces s) where
  commaFree piece hpiece := by
    rw [pieces_splitOn] at hpiece
    obtain ⟨chars, hchars, rfl⟩ := List.mem_map.mp hpiece
    rw [String.toList_ofList]
    exact splitOn_commaFree s.toList chars hchars
  joined := by
    apply String.toList_inj.mp
    rw [String.toList_intercalate, pieces_splitOn, List.map_map]
    have hid : String.toList ∘ String.ofList = id := funext fun _ => String.toList_ofList
    rw [hid, List.map_id]
    exact List.intercalate_splitOn ','
  count := by
    rw [pieces_splitOn, List.length_map, splitOn_length]

/-- Empty pieces are kept. -/
example : pieces ",a,,b" = ["", "a", "", "b"] := by
  rw [pieces_splitOn]
  decide

/-- What `getopt_long` returns, with the argument of an option that has one. -/
inductive CmdLineOpt where
  | help | missingArgument | unknown | other
  | node (optarg : String)
  | coin (optarg : String)
  | address (optarg : String)
  | user (optarg : String)
  | password (optarg : String)
  | wallet (optarg : String)
  | method (optarg : String)
  | miningAddresses (optarg : String)
  | privateKeys (optarg : String)
  deriving DecidableEq, Repr

/-- The variables the options are stored in; the address is a pointer that may stay null. -/
structure Options where
  type : String := ""
  coin : String := ""
  address : Option String := none
  user : String := ""
  password : String := ""
  wallet : String := ""
  method : String := ""
  miningAddresses : List String := []
  privateKeys : List String := []
  deriving DecidableEq, Repr

inductive Parsed where
  | help | invalid
  | options (options : Options)
  deriving DecidableEq, Repr

/-- One option that does not end the program; a missing argument is only reported. -/
def Options.store (options : Options) : CmdLineOpt → Options
  | .node optarg => { options with type := optarg }
  | .coin optarg => { options with coin := optarg }
  | .address optarg => { options with address := some optarg }
  | .user optarg => { options with user := optarg }
  | .password optarg => { options with password := optarg }
  | .wallet optarg => { options with wallet := optarg }
  | .method optarg => { options with method := optarg }
  | .miningAddresses optarg =>
    { options with miningAddresses := appendPieces optarg.toList options.miningAddresses }
  | .privateKeys optarg =>
    { options with privateKeys := appendPieces optarg.toList options.privateKeys }
  | .help | .missingArgument | .unknown | .other => options

def parseCommandLine : List CmdLineOpt → Options → Parsed
  | [], options => .options options
  | .help :: _, _ => .help
  | .unknown :: _, _ => .invalid
  | opt :: rest, options => parseCommandLine rest (options.store opt)

structure CMiningAddress where
  miningAddress : String
  privateKey : String
  deriving DecidableEq, Repr

inductive Client where
  | bitcoinRpc (address user password wallet : String)
  | ethereumRpc (address : String) (miningAddresses : List CMiningAddress)
  deriving DecidableEq, Repr

/-- The loop over the addresses; a key is read at an index, past whose bound nothing is defined.
All addresses have the weight one. -/
def pairAddresses (privateKeys : List String) :
    List String → (i : Nat) → Option (List CMiningAddress)
  | [], _ => some []
  | address :: rest, i => do
    let privateKey ← if privateKeys ≠ [] then privateKeys[i]? else some ""
    let others ← pairAddresses privateKeys rest (i + 1)
    return ⟨address, privateKey⟩ :: others

/-- The user and the password are never null. -/
def createClient (options : Options) (address : String) : Setup Client :=
  if options.type = "bitcoinrpc" then
    return .bitcoinRpc address options.user options.password options.wallet
  else if options.type = "ethereumrpc" then
    if (options.method = "getBalance" ∨ options.method = "buildTransaction") ∧
        options.miningAddresses.length ≠ 1 then
      throw "Error: you must specify single mining address\n"
    else do
      let miningAddresses ← liftM (pairAddresses options.privateKeys options.miningAddresses 0)
      return .ethereumRpc address miningAddresses
  else throw ("unknown client type: " ++ options.type)

def methods : List String := ["getBalance", "buildTransaction", "sendTransaction",
  "getTxConfirmations", "getBlockConfirmation", "getBlockExtraInfo", "listUnspent", "zsendMany",
  "zgetBalance"]

/-- From the options to the client whose method is called. -/
def start (coinLibrary : String → CoinInfo) (options : Options) : Setup Client :=
  match options.address with
  | none => throw "Error: you must specify --node, --coin, --address, --method\n"
  | some address =>
    if options.type = "" ∨ options.coin = "" ∨ options.method = "" then
      throw "Error: you must specify --node, --coin, --address, --method\n"
    else if options.privateKeys ≠ [] ∧
        options.privateKeys.length ≠ options.miningAddresses.length then
      throw "Error: private keys amount must be equal to mining addresses amount\n"
    else if (coinLibrary options.coin).name = "" then
      throw ("Unknown coin: " ++ options.coin)
    else do
      let client ← createClient options address
      if options.method ∈ methods then return client
      else throw ("Unknown method: " ++ options.method)

/-- How the program ends, or what it starts. -/
inductive Outcome where
  | help
  | failed (text : String)
  | started (options : Options) (client : Client)
  deriving DecidableEq, Repr

/-- The error text of an unknown option is that of `getopt_long`. -/
def main (coinLibrary : String → CoinInfo) (opts : List CmdLineOpt) : Option Outcome :=
  match parseCommandLine opts {} with
  | .help => some .help
  | .invalid => some (.failed "")
  | .options options => do
    match ← (start coinLibrary options).run with
    | .ok client => return .started options client
    | .error text => return .failed text

def addressList : CmdLineOpt → List String
  | .miningAddresses optarg => pieces optarg
  | _ => []

def keyList : CmdLineOpt → List String
  | .privateKeys optarg => pieces optarg
  | _ => []

/-- The pieces of all address lists, in their order. -/
def addressesOf (opts : List CmdLineOpt) : List String := opts.flatMap addressList

def keysOf (opts : List CmdLineOpt) : List String := opts.flatMap keyList

def KeysGiven (opts : List CmdLineOpt) : Prop := ∃ optarg, .privateKeys optarg ∈ opts

/-- Each address has the key at its place, or the empty one if no keys were given. -/
structure Paired (opts : List CmdLineOpt) (miningAddresses : List CMiningAddress) : Prop where
  addresses : miningAddresses.map CMiningAddress.miningAddress = addressesOf opts
  keys : KeysGiven opts → miningAddresses.map CMiningAddress.privateKey = keysOf opts
  noKeys : ¬ KeysGiven opts → ∀ pair ∈ miningAddresses, pair.privateKey = ""

/-- An error stops the program, or the addresses are paired. -/
def StopsOrPairs (opts : List CmdLineOpt) : Outcome → Prop
  | .help => False
  | .failed _ => True
  | .started _ (.bitcoinRpc ..) => False
  | .started _ (.ethereumRpc _ miningAddresses) => Paired opts miningAddresses

/-- The help text may stop it as well, and a node of Bitcoin uses neither list. -/
def Settled (opts : List CmdLineOpt) : Outcome → Prop
  | .help => .help ∈ opts
  | .failed _ => True
  | .started options (.bitcoinRpc ..) => options.type = "bitcoinrpc"
  | .started _ (.ethereumRpc _ miningAddresses) => Paired opts miningAddresses

theorem appendPieces_pieces (s : String) (list : List String) :
    appendPieces s.toList list = list ++ pieces s := by
  rw [appendPieces_splitOn, pieces_splitOn]

theorem store_addresses (options : Options) (opt : CmdLineOpt) :
    (options.store opt).miningAddresses = options.miningAddresses ++ addressList opt := by
  cases opt with
  | miningAddresses optarg => exact appendPieces_pieces optarg _
  | _ => exact (List.append_nil _).symm

theorem store_keys (options : Options) (opt : CmdLineOpt) :
    (options.store opt).privateKeys = options.privateKeys ++ keyList opt := by
  cases opt with
  | privateKeys optarg => exact appendPieces_pieces optarg _
  | _ => exact (List.append_nil _).symm

/-- An option ends the parse, or is stored. -/
theorem parse_cons {opt : CmdLineOpt} {rest : List CmdLineOpt} {options final : Options}
    (h : parseCommandLine (opt :: rest) options = .options final) :
    parseCommandLine rest (options.store opt) = .options final := by
  cases opt with
  | help | unknown => cases h
  | _ => exact h

/-- The lists grow by those of each option. -/
theorem parse_lists {opts : List CmdLineOpt} {options final : Options}
    (h : parseCommandLine opts options = .options final) :
    final.miningAddresses = options.miningAddresses ++ addressesOf opts ∧
      final.privateKeys = options.privateKeys ++ keysOf opts := by
  induction opts generalizing options with
  | nil =>
    cases h
    exact ⟨(List.append_nil _).symm, (List.append_nil _).symm⟩
  | cons opt rest ih =>
    obtain ⟨haddresses, hkeys⟩ := ih (parse_cons h)
    rw [store_addresses] at haddresses
    rw [store_keys] at hkeys
    rw [haddresses, hkeys, List.append_assoc, List.append_assoc]
    exact ⟨rfl, rfl⟩

theorem parse_help {opts : List CmdLineOpt} {options : Options}
    (h : parseCommandLine opts options = .help) : .help ∈ opts := by
  induction opts generalizing options with
  | nil => cases h
  | cons opt rest ih =>
    cases opt with
    | help => exact List.mem_cons_self
    | unknown => cases h
    | _ => exact List.mem_cons_of_mem _ (ih h)

theorem pieces_ne_nil (s : String) : pieces s ≠ [] := by
  intro h
  have hcount := (pieces_split s).count
  rw [h] at hcount
  cases hcount

/-- Each list of keys has a key. -/
theorem keysOf_nil_iff (opts : List CmdLineOpt) : keysOf opts = [] ↔ ¬ KeysGiven opts := by
  rw [keysOf, List.flatMap_eq_nil_iff]
  constructor
  · intro h hgiven
    obtain ⟨optarg, hmem⟩ := hgiven
    exact pieces_ne_nil optarg (h _ hmem)
  · intro h opt hmem
    cases opt with
    | privateKeys optarg => exact absurd ⟨optarg, hmem⟩ h
    | _ => rfl

theorem pairAddresses_noKeys (addresses : List String) (i : Nat) :
    pairAddresses [] addresses i = some (addresses.map fun address => ⟨address, ""⟩) := by
  induction addresses generalizing i with
  | nil => rfl
  | cons address rest ih => simp [pairAddresses, ih]

/-- With as many keys as addresses no read is past the end. -/
theorem pairAddresses_keys {privateKeys addresses : List String} {i : Nat}
    (hkeys : privateKeys ≠ []) (hlength : privateKeys.length = i + addresses.length) :
    ∃ paired, pairAddresses privateKeys addresses i = some paired ∧
      paired.map CMiningAddress.miningAddress = addresses ∧
      paired.map CMiningAddress.privateKey = privateKeys.drop i := by
  induction addresses generalizing i with
  | nil =>
    have hend : privateKeys.length ≤ i := Nat.le_of_eq hlength
    exact ⟨[], rfl, rfl, (List.drop_eq_nil_of_le hend).symm⟩
  | cons address rest ih =>
    rw [List.length_cons] at hlength
    have hlt : i < privateKeys.length := by omega
    obtain ⟨others, hothers, haddresses, hrest⟩ := ih (i := i + 1) (by omega)
    refine ⟨⟨address, privateKeys[i]⟩ :: others, ?_, ?_, ?_⟩
    · rw [pairAddresses, if_pos hkeys, List.getElem?_eq_getElem hlt, hothers]
      rfl
    · rw [List.map_cons, haddresses]
    · rw [List.map_cons, hrest, List.drop_eq_getElem_cons hlt]

/-- The loop pairs the lists of a command line whose keys were checked. -/
theorem pairAddresses_paired {opts : List CmdLineOpt}
    (h : keysOf opts ≠ [] → (keysOf opts).length = (addressesOf opts).length) :
    ∃ paired, pairAddresses (keysOf opts) (addressesOf opts) 0 = some paired ∧
      Paired opts paired := by
  by_cases hkeys : keysOf opts = []
  · refine ⟨_, by rw [hkeys]; exact pairAddresses_noKeys _ _, ?_, ?_, ?_⟩
    · rw [List.map_map]
      exact List.map_id _
    · intro hgiven
      exact absurd hgiven ((keysOf_nil_iff opts).mp hkeys)
    · intro _ pair hpair
      obtain ⟨address, _, rfl⟩ := List.mem_map.mp hpair
      rfl
  · have hlength : (keysOf opts).length = 0 + (addressesOf opts).length := by
      rw [h hkeys, Nat.zero_add]
    obtain ⟨paired, hpaired, haddresses, hprivate⟩ := pairAddresses_keys hkeys hlength
    refine ⟨paired, hpaired, haddresses, fun _ => hprivate, ?_⟩
    intro hnone
    exact absurd ((keysOf_nil_iff opts).mpr hnone) hkeys

/-- A set-up stops with an error, or yields something with a property. -/
def Yields {α : Type} (P : α → Prop) (setup : Setup α) : Prop :=
  (∃ text, setup = throw text) ∨ ∃ x, setup = pure x ∧ P x

def ClientSettled (opts : List CmdLineOpt) (options : Options) (client : Client) : Prop :=
  Settled opts (.started options client)

theorem createClient_settled {opts : List CmdLineOpt} {options : Options} {address : String}
    (haddresses : options.miningAddresses = addressesOf opts)
    (hkeys : options.privateKeys = keysOf opts)
    (hchecked : keysOf opts ≠ [] → (keysOf opts).length = (addressesOf opts).length) :
    Yields (ClientSettled opts options) (createClient options address) := by
  unfold createClient
  split
  · rename_i htype
    exact .inr ⟨_, rfl, htype⟩
  · split
    · split
      · exact .inl ⟨_, rfl⟩
      · obtain ⟨paired, hpaired, hproperty⟩ := pairAddresses_paired hchecked
        rw [haddresses, hkeys, hpaired]
        exact .inr ⟨_, rfl, hproperty⟩
    · exact .inl ⟨_, rfl⟩

theorem start_settled (coinLibrary : String → CoinInfo) {opts : List CmdLineOpt}
    {options : Options} (haddresses : options.miningAddresses = addressesOf opts)
    (hkeys : options.privateKeys = keysOf opts) :
    Yields (ClientSettled opts options) (start coinLibrary options) := by
  unfold start
  split
  · exact .inl ⟨_, rfl⟩
  · split
    · exact .inl ⟨_, rfl⟩
    · split
      · exact .inl ⟨_, rfl⟩
      · rename_i hsizes
        have hchecked : keysOf opts ≠ [] → (keysOf opts).length = (addressesOf opts).length := by
          intro hgiven
          by_contra hne
          rw [haddresses, hkeys] at hsizes
          exact hsizes ⟨hgiven, hne⟩
        split
        · exact .inl ⟨_, rfl⟩
        · cases createClient_settled haddresses hkeys hchecked with
          | inl hthrow =>
            obtain ⟨text, htext⟩ := hthrow
            exact .inl ⟨text, by rw [htext]; rfl⟩
          | inr hpure =>
            obtain ⟨client, hclient, hsettled⟩ := hpure
            rw [hclient]
            show Yields _ (if options.method ∈ methods then pure client else throw _)
            split
            · exact .inr ⟨client, rfl, hsettled⟩
            · exact .inl ⟨_, rfl⟩

theorem main_settled (coinLibrary : String → CoinInfo) (opts : List CmdLineOpt) :
    ∃ outcome, main coinLibrary opts = some outcome ∧ Settled opts outcome := by
  unfold main
  cases hparse : parseCommandLine opts {} with
  | help => exact ⟨_, rfl, parse_help hparse⟩
  | invalid => exact ⟨_, rfl, trivial⟩
  | options options =>
    obtain ⟨haddresses, hkeys⟩ := parse_lists hparse
    cases start_settled coinLibrary haddresses hkeys with
    | inl hthrow =>
      obtain ⟨text, htext⟩ := hthrow
      exact ⟨.failed text, by simp only [htext]; rfl, trivial⟩
    | inr hpure =>
      obtain ⟨client, hclient, hsettled⟩ := hpure
      exact ⟨.started options client, by simp only [hclient]; rfl, hsettled⟩

/-- Every list is split, and every command line is settled. -/
theorem lists_settled : (∀ s, Split s (pieces s)) ∧
    ∀ (coinLibrary : String → CoinInfo) (opts : List CmdLineOpt),
      ∃ outcome, main coinLibrary opts = some outcome ∧ Settled opts outcome :=
  ⟨pieces_split, main_settled⟩

/-- A node of Bitcoin with a list of addresses. -/
def bitcoinOpts : List CmdLineOpt := [.node "bitcoinrpc", .coin "BTC", .address "localhost",
  .method "getBalance", .miningAddresses "a,b"]

theorem bitcoin_unpaired : ¬ ((∀ s, Split s (pieces s)) ∧
    ∀ (coinLibrary : String → CoinInfo) (opts : List CmdLineOpt),
      ∃ outcome, main coinLibrary opts = some outcome ∧ StopsOrPairs opts outcome) := by
  intro h
  obtain ⟨outcome, hmain, hsettled⟩ :=
    h.2 (fun name => ⟨name, name, "sha256", 100000000, 1, 0, 0, 1⟩) bitcoinOpts
  cases hmain
  exact hsettled

end NodeRpc
