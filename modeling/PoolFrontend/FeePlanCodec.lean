import PoolFrontend.UserHandlers

/-!
# Fee plans, written and read

What the writer of a fee plan produces is read back by the fields of
`onUserUpdateFeePlan`, and what these accept is written back, apart from the members
the parser does not know.
-/
namespace FeePlanCodec

open Json Poolcore RequestFields UserHandlers

/-- No string the accessors can reach contains a NUL. -/
inductive Clean : Value → Prop
  | null : Clean .null
  | bool (b : Bool) : Clean (.bool b)
  | int (i : Int) : Clean (.int i)
  | double (d : Double) : Clean (.double d)
  | string (s : String) : NulFree s → Clean (.string s)
  | array (xs : List Value) : (∀ x ∈ xs, Clean x) → Clean (.array xs)
  | object (ms : Members) : (∀ name v, ms.lookup name = some v → Clean v) → Clean (.object ms)

/-- A double has every integer the accessors can reach: reading it as a number loses nothing. -/
inductive Lossless : Value → Prop
  | null : Lossless .null
  | bool (b : Bool) : Lossless (.bool b)
  | int (i : Int) : Double.ofInt i = .finite i → Lossless (.int i)
  | double (d : Double) : Lossless (.double d)
  | string (s : String) : Lossless (.string s)
  | array (xs : List Value) : (∀ x ∈ xs, Lossless x) → Lossless (.array xs)
  | object (ms : Members) : (∀ name v, ms.lookup name = some v → Lossless v) →
      Lossless (.object ms)

/-- A document whose strings and numbers are read without loss. -/
structure Readable (v : Value) : Prop where
  clean : Clean v
  lossless : Lossless v

/-- The number of a document, to its last digit. -/
def exactNumber : Value → Option Double
  | .int i => some (.finite i)
  | .double d => some d
  | _ => none

mutual

/-- Documents that differ at most in the order of members and in how a number is written;
of members with one name the first counts. -/
inductive Same : Value → Value → Prop
  | null : Same .null .null
  | bool (b : Bool) : Same (.bool b) (.bool b)
  | string (s : String) : Same (.string s) (.string s)
  | number (v w : Value) (d : Double) : exactNumber v = some d → exactNumber w = some d → Same v w
  | array (xs ys : List Value) : SameAll xs ys → Same (.array xs) (.array ys)
  | object (ms ns : Members) : (∀ name, ms.lookup name = none ↔ ns.lookup name = none) →
      (∀ name v w, ms.lookup name = some v → ns.lookup name = some w → Same v w) →
      Same (.object ms) (.object ns)

inductive SameAll : List Value → List Value → Prop
  | nil : SameAll [] []
  | cons (x y : Value) (xs ys : List Value) : Same x y → SameAll xs ys →
      SameAll (x :: xs) (y :: ys)

end

/-- The members of an object the parser knows. -/
def known (names : List String) (ms : Members) : Members :=
  ms.filter fun member => member.1 ∈ names

/-- A pair without the members the parser does not know. -/
def knownPair : Value → Value
  | .object ms => .object (known ["userId", "percentage"] ms)
  | v => v

def knownConfig : Value → Value
  | .array pairs => .array (pairs.map knownPair)
  | v => v

/-- A coin without the members the parser does not know, its pairs included. -/
def knownCoin : Value → Value
  | .object ms => .object ((known ["coin", "config"] ms).map fun member =>
      (member.1, if member.1 = "config" then knownConfig member.2 else member.2))
  | v => v

def knownCoins : Value → Value
  | .array coins => .array (coins.map knownCoin)
  | v => v

theorem lookup_cons_ite (name key : String) (v : Value) (ms : Members) :
    List.lookup name ((key, v) :: ms) = if name = key then some v else ms.lookup name := by
  by_cases h : name = key
  · rw [if_pos h, h, List.lookup_cons_self]
  · have hbeq : (name == key) = false := by simpa using h
    rw [if_neg h, List.lookup_cons, hbeq]

theorem known_lookup (names : List String) (ms : Members) (name : String) :
    (known names ms).lookup name = if name ∈ names then ms.lookup name else none := by
  induction ms with
  | nil => simp [known]
  | cons member ms ih =>
    obtain ⟨key, v⟩ := member
    by_cases hkey : key ∈ names
    · have hcons : known names ((key, v) :: ms) = (key, v) :: known names ms := by
        simp [known, hkey]
      rw [hcons, lookup_cons_ite, lookup_cons_ite, ih]
      by_cases hname : name = key
      · simp [hname, hkey]
      · simp [hname]
    · have hcons : known names ((key, v) :: ms) = known names ms := by simp [known, hkey]
      rw [hcons, lookup_cons_ite, ih]
      by_cases hname : name = key
      · simp [hname, hkey]
      · simp [hname]

theorem lookup_map (f : String → Value → Value) (ms : Members) (name : String) :
    (ms.map fun member => (member.1, f member.1 member.2)).lookup name =
      (ms.lookup name).map (f name) := by
  induction ms with
  | nil => rfl
  | cons member ms ih =>
    obtain ⟨key, v⟩ := member
    rw [List.map_cons, lookup_cons_ite, lookup_cons_ite, ih]
    by_cases hname : name = key
    · simp [hname]
    · simp [hname]

/-- An object whose members are two is the same as the object written from them. -/
theorem same_two {ms : Members} {a b : String} {v w v' w' : Value} (hab : a ≠ b)
    (ha : ms.lookup a = some v) (hb : ms.lookup b = some w)
    (hother : ∀ name, name ≠ a → name ≠ b → ms.lookup name = none)
    (hv : Same v v') (hw : Same w w') : Same (.object ms) (.object [(a, v'), (b, w')]) := by
  have hlookup : ∀ name, List.lookup name [(a, v'), (b, w')] =
      if name = a then some v' else if name = b then some w' else none := by
    intro name
    rw [lookup_cons_ite, lookup_cons_ite]
    rfl
  apply Same.object
  · intro name
    rw [hlookup]
    by_cases hna : name = a
    · simp [hna, ha]
    · by_cases hnb : name = b
      · simp [hnb, hb, hab.symm]
      · simp [hna, hnb, hother name hna hnb]
  · intro name x y hx hy
    rw [hlookup] at hy
    by_cases hna : name = a
    · rw [hna, ha] at hx
      rw [if_pos hna] at hy
      cases hx
      cases hy
      exact hv
    · rw [if_neg hna] at hy
      by_cases hnb : name = b
      · rw [hnb, hb] at hx
        rw [if_pos hnb] at hy
        cases hx
        cases hy
        exact hw
      · rw [if_neg hnb] at hy
        cases hy

/-- No string of a fee plan contains a NUL. -/
structure PlanNulFree (r : UserFeePlanRecord) : Prop where
  feePlanId : NulFree r.feePlanId
  default : ∀ pair ∈ r.default, NulFree pair.userId
  coinName : ∀ fee ∈ r.coinSpecificFee, NulFree fee.coinName
  config : ∀ fee ∈ r.coinSpecificFee, ∀ pair ∈ fee.config, NulFree pair.userId

theorem mapM_written {α : Type} {write : α → Value} {read : Value → Option α} (xs : List α)
    (h : ∀ x ∈ xs, read (write x) = some x) : (xs.map write).mapM read = some xs := by
  rw [mapM_iff fun _ _ => Iff.rfl, List.forall₂_map_left_iff]
  exact List.forall₂_same.mpr h

/-- A string member at the head of an object is read as itself. -/
theorem string_written {ms : Members} {name s : String}
    (hv : ms.lookup name = some (.string s)) (hs : NulFree s) : string ms name = some s := by
  simp [string, required, hv, Getter.string, Value.getString, cString_nulFree hs]

theorem pair_written (pair : UserFeePair) (h : NulFree pair.userId) :
    ofObject feePairMembers (.object [("userId", .string pair.userId),
      ("percentage", .double pair.percentage)]) = some pair := by
  have huser : string [("userId", .string pair.userId), ("percentage", .double pair.percentage)]
      "userId" = some pair.userId := string_written rfl h
  have hnumber : number [("userId", .string pair.userId),
      ("percentage", .double pair.percentage)] "percentage" = some pair.percentage := rfl
  simp [ofObject, feePairMembers, huser, hnumber]

theorem config_written {ms : Members} {name : String} {config : UserFeeConfig}
    (hv : ms.lookup name = some (addUserFeeConfig config))
    (h : ∀ pair ∈ config, NulFree pair.userId) : feeConfigMembers ms name = some config := by
  have harray : required Getter.array ms name = some (config.map fun pair =>
      .object [("userId", .string pair.userId), ("percentage", .double pair.percentage)]) := by
    rw [required, hv]
    rfl
  rw [feeConfigMembers, harray]
  exact mapM_written config fun pair hp => pair_written pair (h pair hp)

theorem coin_written (fee : CoinSpecificFeeRecord) (hname : NulFree fee.coinName)
    (hconfig : ∀ pair ∈ fee.config, NulFree pair.userId) :
    ofObject coinSpecificFeeMembers (.object [("coin", .string fee.coinName),
      ("config", addUserFeeConfig fee.config)]) = some fee := by
  have hcoin : string [("coin", .string fee.coinName), ("config", addUserFeeConfig fee.config)]
      "coin" = some fee.coinName := string_written rfl hname
  have hpairs : feeConfigMembers [("coin", .string fee.coinName),
      ("config", addUserFeeConfig fee.config)] "config" = some fee.config :=
    config_written rfl hconfig
  simp [ofObject, coinSpecificFeeMembers, hcoin, hpairs]

/-- A document with the members of a written plan, and a session, is read as the plan. -/
theorem plan_written (r : UserFeePlanRecord) (h : PlanNulFree r) {ms : Members}
    {sessionId : String} (hid : string ms "id" = some sessionId)
    (hplan : ms.lookup "feePlanId" = some (.string r.feePlanId))
    (hdefault : ms.lookup "default" = some (addUserFeeConfig r.default))
    (hcoins : ms.lookup "coinSpecificFee" = some (.array (r.coinSpecificFee.map fun fee =>
      .object [("coin", .string fee.coinName), ("config", addUserFeeConfig fee.config)]))) :
    feePlanMembers ms = some (sessionId, r) := by
  have hread := mapM_written r.coinSpecificFee fun fee hfee =>
    coin_written fee (h.coinName fee hfee) (h.config fee hfee)
  have hvalues : coinSpecificFees ms = r.coinSpecificFee.map fun fee =>
      .object [("coin", .string fee.coinName), ("config", addUserFeeConfig fee.config)] := by
    rw [coinSpecificFees, hcoins]
  simp [feePlanMembers, hid, string_written hplan h.feePlanId, config_written hdefault h.default,
    hvalues, hread]

/-- Reading a list of objects and writing it again, element by element. -/
theorem written_mapM {α : Type} {read : Members → Option α} {keep : Value → Value}
    {write : α → Value}
    (h : ∀ ms x, Readable (.object ms) → read ms = some x → Same (keep (.object ms)) (write x))
    {values : List Value} {xs : List α} (hreadable : ∀ v ∈ values, Readable v)
    (hread : values.mapM (ofObject read) = some xs) :
    SameAll (values.map keep) (xs.map write) := by
  have hall := (List.forall₂_and_left _ _).mpr
    ⟨hreadable, (mapM_iff (fun _ _ => Iff.rfl) values xs).mp hread⟩
  clear hreadable hread
  induction hall with
  | nil => exact .nil
  | @cons v x values xs hhead _ ih =>
    obtain ⟨hreadable, hread⟩ := hhead
    cases v with
    | object ms => exact .cons _ _ _ _ (h ms x hreadable hread) ih
    | _ => cases hread

theorem clean_lookup {ms : Members} (h : Clean (.object ms)) {name : String} {v : Value}
    (hv : ms.lookup name = some v) : Clean v := by
  cases h with
  | object _ hall => exact hall name v hv

theorem clean_elements {xs : List Value} (h : Clean (.array xs)) : ∀ x ∈ xs, Clean x := by
  cases h with
  | array _ hall => exact hall

theorem readable_lookup {ms : Members} (h : Readable (.object ms)) {name : String} {v : Value}
    (hv : ms.lookup name = some v) : Readable v := by
  refine ⟨clean_lookup h.clean hv, ?_⟩
  cases h.lossless with
  | object _ hall => exact hall name v hv

theorem readable_elements {xs : List Value} (h : Readable (.array xs)) :
    ∀ x ∈ xs, Readable x := by
  cases h.lossless with
  | array _ hall => exact fun x hx => ⟨clean_elements h.clean x hx, hall x hx⟩

/-- A string read from a readable document is the member itself. -/
theorem string_read {ms : Members} {name s : String} (hreadable : Readable (.object ms))
    (h : string ms name = some s) : ms.lookup name = some (.string s) := by
  obtain ⟨v, hv, hget⟩ := Option.bind_eq_some_iff.mp h
  cases v with
  | string t =>
    have ht : NulFree t := by
      cases (readable_lookup hreadable hv).clean with
      | string _ ht => exact ht
    have hts : cString t = s := Option.some.inj hget
    rw [hv, ← hts, cString_nulFree ht]
  | _ => cases hget

/-- A number read from a readable document is the member to its last digit. -/
theorem number_read {ms : Members} {name : String} {d : Double} (hreadable : Readable (.object ms))
    (h : number ms name = some d) : ∃ v, ms.lookup name = some v ∧ exactNumber v = some d := by
  obtain ⟨v, hv, hget⟩ := Option.bind_eq_some_iff.mp h
  refine ⟨v, hv, ?_⟩
  cases v with
  | int i =>
    cases (readable_lookup hreadable hv).lossless with
    | int _ hexact =>
      have hd : Double.ofInt i = d := Option.some.inj hget
      rw [exactNumber, ← hd, hexact]
  | double _ => exact hget
  | _ => cases hget

theorem pair_read (ms : Members) (pair : UserFeePair) (hreadable : Readable (.object ms))
    (h : feePairMembers ms = some pair) :
    Same (knownPair (.object ms))
      (.object [("userId", .string pair.userId), ("percentage", .double pair.percentage)]) := by
  obtain ⟨userId, huser, h⟩ := Option.bind_eq_some_iff.mp h
  obtain ⟨percentage, hnumber, h⟩ := Option.bind_eq_some_iff.mp h
  cases h
  obtain ⟨v, hv, hexact⟩ := number_read hreadable hnumber
  refine same_two (by decide) (a := "userId") (b := "percentage") ?_ ?_ ?_
    (.string userId) (.number v _ percentage hexact rfl)
  · rw [known_lookup]
    exact string_read hreadable huser
  · rw [known_lookup]
    exact hv
  · intro name ha hb
    rw [known_lookup]
    simp [ha, hb]

theorem config_read {ms : Members} {name : String} {config : UserFeeConfig}
    (hreadable : Readable (.object ms)) (h : feeConfigMembers ms name = some config) :
    ∃ v, ms.lookup name = some v ∧ Same (knownConfig v) (addUserFeeConfig config) := by
  obtain ⟨pairs, harray, h⟩ := Option.bind_eq_some_iff.mp h
  obtain ⟨v, hv, hget⟩ := Option.bind_eq_some_iff.mp harray
  cases v with
  | array xs =>
    have hxs : xs = pairs := Option.some.inj hget
    subst hxs
    exact ⟨.array xs, hv, .array _ _ (written_mapM pair_read
      (readable_elements (readable_lookup hreadable hv)) h)⟩
  | _ => cases hget

theorem coin_read (ms : Members) (fee : CoinSpecificFeeRecord) (hreadable : Readable (.object ms))
    (h : coinSpecificFeeMembers ms = some fee) :
    Same (knownCoin (.object ms))
      (.object [("coin", .string fee.coinName), ("config", addUserFeeConfig fee.config)]) := by
  obtain ⟨coinName, hcoin, h⟩ := Option.bind_eq_some_iff.mp h
  obtain ⟨config, hconfig, h⟩ := Option.bind_eq_some_iff.mp h
  cases h
  obtain ⟨v, hv, hsame⟩ := config_read hreadable hconfig
  have hkeep : ∀ name, ((known ["coin", "config"] ms).map fun member =>
      (member.1, if member.1 = "config" then knownConfig member.2 else member.2)).lookup name =
        (if name ∈ ["coin", "config"] then ms.lookup name else none).map
          fun v => if name = "config" then knownConfig v else v := by
    intro name
    rw [← known_lookup]
    exact lookup_map (fun name v => if name = "config" then knownConfig v else v) _ name
  refine same_two (by decide) (a := "coin") (b := "config") ?_ ?_ ?_ (.string coinName) hsame
  · rw [hkeep, string_read hreadable hcoin]
    rfl
  · rw [hkeep, hv]
    rfl
  · intro name ha hb
    rw [hkeep]
    simp [ha, hb]

def parts : List String := ["feePlanId", "default", "coinSpecificFee"]

/-- A part of a plan as a document has it; an absent `coinSpecificFee` is the empty list. -/
def partOf (ms : Members) (name : String) : Option Value :=
  if name = "coinSpecificFee" then some ((ms.lookup name).getD (.array [])) else ms.lookup name

/-- A part without the members the parser does not know. -/
def knownPart (name : String) (part : Value) : Value :=
  if name = "default" then knownConfig part
  else if name = "coinSpecificFee" then knownCoins part
  else part

/-- Written, the record gives back every part of the document, of which `keep` is kept. -/
def GivesBack (keep : String → Value → Value) (ms : Members) (record : UserFeePlanRecord) :
    Prop :=
  ∀ name ∈ parts, ∃ v w, partOf ms name = some v ∧
    (addUserFeePlan record).member name = some w ∧ Same (keep name v) w

theorem coins_read {ms : Members} {coins : List CoinSpecificFeeRecord}
    (hreadable : Readable (.object ms))
    (harray : ∀ v, ms.lookup "coinSpecificFee" = some v → v.isArray = true)
    (h : (coinSpecificFees ms).mapM (ofObject coinSpecificFeeMembers) = some coins) :
    Same (knownCoins ((ms.lookup "coinSpecificFee").getD (.array [])))
      (.array (coins.map fun fee =>
        .object [("coin", .string fee.coinName), ("config", addUserFeeConfig fee.config)])) := by
  cases hv : ms.lookup "coinSpecificFee" with
  | none =>
    rw [coinSpecificFees, hv] at h
    cases h
    exact .array _ _ .nil
  | some v =>
    have hvalue := harray v hv
    cases v with
    | array values =>
      rw [coinSpecificFees, hv] at h
      exact .array _ _ (written_mapM coin_read (readable_elements (readable_lookup hreadable hv)) h)
    | _ => cases hvalue

theorem plan_read {ms : Members} {sessionId : String} {record : UserFeePlanRecord}
    (hreadable : Readable (.object ms))
    (harray : ∀ v, ms.lookup "coinSpecificFee" = some v → v.isArray = true)
    (h : feePlanMembers ms = some (sessionId, record)) : GivesBack knownPart ms record := by
  obtain ⟨_, _, h⟩ := Option.bind_eq_some_iff.mp h
  obtain ⟨feePlanId, hplan, h⟩ := Option.bind_eq_some_iff.mp h
  obtain ⟨default, hdefault, h⟩ := Option.bind_eq_some_iff.mp h
  obtain ⟨coins, hcoins, h⟩ := Option.bind_eq_some_iff.mp h
  cases h
  obtain ⟨v, hv, hsame⟩ := config_read hreadable hdefault
  intro name hname
  simp only [parts, List.mem_cons, List.not_mem_nil, or_false] at hname
  obtain rfl | rfl | rfl := hname
  · exact ⟨_, _, string_read hreadable hplan, rfl, .string feePlanId⟩
  · exact ⟨_, _, hv, rfl, hsame⟩
  · exact ⟨_, _, rfl, rfl, coins_read hreadable harray hcoins⟩

/-- A written plan is read as itself, and a plan that was read without loss is written as the
document had it, apart from what the parser does not know. -/
theorem fee_plan_round_trip :
    (∀ (r : UserFeePlanRecord) (ms : Members) (sessionId : String), PlanNulFree r →
      ms.lookup "id" = some (.string sessionId) →
      (∀ name ∈ parts, ms.lookup name = (addUserFeePlan r).member name) →
      jsonParseUserFeePlan (.object ms) true = some ((cString sessionId, r), true)) ∧
    (∀ (ms : Members) (sessionId : String) (record : UserFeePlanRecord), Readable (.object ms) →
      (∀ v, ms.lookup "coinSpecificFee" = some v → v.isArray = true) →
      jsonParseUserFeePlan (.object ms) true = some ((sessionId, record), true) →
      GivesBack knownPart ms record) := by
  refine ⟨fun r ms sessionId hr hid hparts => ?_,
    fun ms sessionId record hreadable harray hrun => ?_⟩
  · have hstring : string ms "id" = some (cString sessionId) := by
      simp [string, required, hid, Getter.string, Value.getString]
    rw [reads_accepts (reads_feePlan ms)]
    exact plan_written r hr hstring (hparts "feePlanId" (by decide))
      (hparts "default" (by decide)) (hparts "coinSpecificFee" (by decide))
  · rw [reads_accepts (reads_feePlan ms)] at hrun
    exact plan_read hreadable harray hrun

/-- The session and the plan of a document whose pair has a member of its own. -/
def notedPlan : Members := [
  ("id", .string "s"),
  ("feePlanId", .string "p"),
  ("default", .array [.object [
    ("userId", .string "u"), ("percentage", .int 1), ("note", .null)]])]

theorem clean_members {ms : Members} (h : ∀ member ∈ ms, Clean member.2) :
    Clean (.object ms) := by
  refine .object ms fun name v hv => ?_
  obtain ⟨before, after, rfl, -⟩ := List.lookup_eq_some_iff.mp hv
  exact h (name, v) (by simp)

theorem lossless_members {ms : Members} (h : ∀ member ∈ ms, Lossless member.2) :
    Lossless (.object ms) := by
  refine .object ms fun name v hv => ?_
  obtain ⟨before, after, rfl, -⟩ := List.lookup_eq_some_iff.mp hv
  exact h (name, v) (by simp)

theorem notedPlan_clean : Clean (.object notedPlan) := by
  have hpair : Clean
      (.object [("userId", .string "u"), ("percentage", .int 1), ("note", .null)]) := by
    apply clean_members
    simp only [List.forall_mem_cons]
    exact ⟨.string "u" (by decide), .int 1, .null, List.forall_mem_nil _⟩
  apply clean_members
  simp only [notedPlan, List.forall_mem_cons]
  exact ⟨.string "s" (by decide), .string "p" (by decide), .array _ (by simpa using hpair),
    List.forall_mem_nil _⟩

theorem notedPlan_lossless : Lossless (.object notedPlan) := by
  have hpair : Lossless
      (.object [("userId", .string "u"), ("percentage", .int 1), ("note", .null)]) := by
    apply lossless_members
    simp only [List.forall_mem_cons]
    exact ⟨.string "u", .int 1 (Double.ofInt_exact (by decide)), .null, List.forall_mem_nil _⟩
  apply lossless_members
  simp only [notedPlan, List.forall_mem_cons]
  exact ⟨.string "s", .string "p", .array _ (by simpa using hpair), List.forall_mem_nil _⟩

/-- The member the parser does not know is not written back. -/
theorem noted_plan_loses_note :
    ¬ ∀ (ms : Members) (sessionId : String) (record : UserFeePlanRecord), Readable (.object ms) →
      (∀ v, ms.lookup "coinSpecificFee" = some v → v.isArray = true) →
      jsonParseUserFeePlan (.object ms) true = some ((sessionId, record), true) →
      GivesBack (fun _ part => part) ms record := by
  intro hclaim
  have hread : feePlanMembers notedPlan = some ("s", ⟨"p", [⟨"u", .finite 1⟩], []⟩) := by decide
  have hback := hclaim notedPlan _ _ ⟨notedPlan_clean, notedPlan_lossless⟩ (by decide)
    ((reads_accepts (reads_feePlan notedPlan) _).mpr hread)
  obtain ⟨v, w, hv, hw, hsame⟩ := hback "default" (by decide)
  cases hv
  cases hw
  cases hsame with
  | number _ _ d hd _ => cases hd
  | array _ _ hall =>
    cases hall with
    | cons _ _ _ _ hpair _ =>
      cases hpair with
      | number _ _ d hd _ => cases hd
      | object _ _ hnone _ =>
        have hnote := (hnone "note").mpr rfl
        cases hnote

end FeePlanCodec
