import PoolFrontend.UserHandlers

/-!
# The grammar of a fee plan

A plan has its pairs in an array `default`, and may have an array of coins with pairs of their
own. The handler takes a member of another type in the place of the coins for none, and reads
every text as a C string.
-/
namespace FeePlanGrammar

open Json Poolcore Server RequestFields UserHandlers

section Grammar

variable (text : String → String)

/-- A member that is a string; `text` is what is made of it. -/
def TextAt (name : String) (ms : Members) (s : String) : Prop :=
  ∃ written, ms.lookup name = some (.string written) ∧ s = text written

/-- An object with a string and a number. -/
def PairOf (value : Value) (pair : UserFeePair) : Prop :=
  ∃ ms, value = .object ms ∧ TextAt text "userId" ms pair.userId ∧
    (ms.lookup "percentage").bind Value.getDouble = some pair.percentage

/-- An array of pairs, in order. -/
def ConfigOf (name : String) (ms : Members) (config : UserFeeConfig) : Prop :=
  ∃ pairs, ms.lookup name = some (.array pairs) ∧ List.Forall₂ (PairOf text) pairs config

/-- An object with a string and pairs. -/
def CoinOf (value : Value) (fee : CoinSpecificFeeRecord) : Prop :=
  ∃ ms, value = .object ms ∧ TextAt text "coin" ms fee.coinName ∧
    ConfigOf text "config" ms fee.config

/-- The array of coins, in order, or no member. -/
def CoinsOf (ms : Members) (fees : List CoinSpecificFeeRecord) : Prop :=
  (ms.lookup "coinSpecificFee" = none ∧ fees = []) ∨
    ∃ values, ms.lookup "coinSpecificFee" = some (.array values) ∧
      List.Forall₂ (CoinOf text) values fees

/-- The pairs and the coins of a plan. -/
structure EntriesOf (ms : Members) (record : UserFeePlanRecord) : Prop where
  default : ConfigOf text "default" ms record.default
  coins : CoinsOf text ms record.coinSpecificFee

end Grammar

/-- The members that every plan has. -/
structure Begins (ms : Members) : Prop where
  sessionId : ∃ s, TextAt id "id" ms s
  feePlanId : ∃ s, TextAt id "feePlanId" ms s
  default : ∃ config, ConfigOf id "default" ms config

structure WellFormed (ms : Members) : Prop extends Begins ms where
  coins : ∃ fees, CoinsOf id ms fees

/-- The handler goes past the check of the flag, with what it has read. -/
def GoesPast (ms : Members) (sessionId : String) (record : UserFeePlanRecord) : Prop :=
  jsonParseUserFeePlan (.object ms) true = some ((sessionId, record), true)

theorem goesPast_members {ms : Members} {sessionId : String} {record : UserFeePlanRecord} :
    GoesPast ms sessionId record ↔ feePlanMembers ms = some (sessionId, record) :=
  reads_accepts (reads_feePlan ms) (sessionId, record)

section Handler

variable {server : PoolHttpServer} {ms : Members}

/-- Past the check the coins are looked up, and the plan that was read is handed on. -/
theorem update_past {sessionId : String} {record : UserFeePlanRecord}
    (h : GoesPast ms sessionId record) : onUserUpdateFeePlan server (.object ms) =
      if record.coinSpecificFee.any fun fee => (server.backend fee.coinName).isNone then
        replyWithStatus "invalid_coin"
      else answerLater (.updateFeePlan sessionId record) fun status => replyWithStatus status := by
  rw [onUserUpdateFeePlan, withFields_feePlan, goesPast_members.mp h]
  rfl

theorem update_rejected (h : ∀ sessionId record, ¬ GoesPast ms sessionId record) :
    onUserUpdateFeePlan server (.object ms) = replyWithStatus "json_format_error" := by
  have hnone : feePlanMembers ms = none := by
    cases hread : feePlanMembers ms with
    | none => rfl
    | some plan => exact absurd (goesPast_members.mpr hread) (h plan.1 plan.2)
  rw [onUserUpdateFeePlan, withFields_feePlan, hnone]
  rfl

end Handler

/-- The handler goes past its check exactly on well-formed documents, and then with exactly
the pairs and coins of the document. -/
structure Follows (ms : Members) : Prop where
  passes : (∃ sessionId record, GoesPast ms sessionId record) ↔ WellFormed ms
  entries : ∀ sessionId record, GoesPast ms sessionId record → EntriesOf id ms record

/-- No text of a pair or a coin has a NUL. -/
structure EntriesNulFree (record : UserFeePlanRecord) : Prop where
  default : ∀ pair ∈ record.default, NulFree pair.userId
  coins : ∀ fee ∈ record.coinSpecificFee,
    NulFree fee.coinName ∧ ∀ pair ∈ fee.config, NulFree pair.userId

/-- Behind the members that every plan has the coins are an array, if they are there, and no
text of the plan has a NUL. -/
structure Plain (ms : Members) : Prop where
  array : Begins ms → ∀ value, ms.lookup "coinSpecificFee" = some value → value.isArray = true
  nulFree : ∀ record, WellFormed ms → EntriesOf id ms record → EntriesNulFree record

section Texts

/-- A relation that says what a value holds, for each way of reading its texts: whether there is
anything does not depend on the way, what there is is determined by it, and as C strings the
texts are read in full exactly when they are clean. -/
structure Texts {α β : Type} (R : (String → String) → α → β → Prop) (clean : β → Prop) : Prop where
  transfer : ∀ {t u a b}, R t a b → ∃ c, R u a c
  unique : ∀ {t a b c}, R t a b → R t a c → b = c
  cString_iff : ∀ {a b}, R id a b → (R cString a b ↔ clean b)

theorem Texts.exists_iff {α β : Type} {R : (String → String) → α → β → Prop} {clean : β → Prop}
    (h : Texts R clean) (t u : String → String) (a : α) : (∃ b, R t a b) ↔ ∃ b, R u a b := by
  constructor
  · intro hexists
    obtain ⟨b, hb⟩ := hexists
    exact h.transfer hb
  · intro hexists
    obtain ⟨b, hb⟩ := hexists
    exact h.transfer hb

/-- What is read as C strings is what is there, if that is clean. -/
theorem Texts.read_eq {α β : Type} {R : (String → String) → α → β → Prop} {clean : β → Prop}
    (h : Texts R clean) {a : α} {b c : β} (hread : R cString a b) (hthere : R id a c)
    (hclean : clean c) : b = c :=
  h.unique hread ((h.cString_iff hthere).mpr hclean)

theorem texts_forall {α β : Type} {R : (String → String) → α → β → Prop} {clean : β → Prop}
    (h : Texts R clean) :
    Texts (fun text => List.Forall₂ (R text)) fun ys => ∀ y ∈ ys, clean y where
  transfer {t u xs ys} hall := by
    induction hall with
    | nil => exact ⟨[], .nil⟩
    | cons hhead _ ih =>
      obtain ⟨c, hc⟩ := h.transfer hhead (u := u)
      obtain ⟨cs, hcs⟩ := ih
      exact ⟨c :: cs, .cons hc hcs⟩
  unique {t xs ys zs} hys hzs := by
    induction hys generalizing zs with
    | nil =>
      cases hzs
      rfl
    | cons hhead _ ih =>
      cases hzs with
      | cons hhead' htail' => rw [h.unique hhead hhead', ih htail']
  cString_iff {xs ys} hall := by
    induction hall with
    | nil => simp
    | cons hhead _ ih => rw [List.forall₂_cons, List.forall_mem_cons, h.cString_iff hhead, ih]

theorem texts_text (name : String) : Texts (fun text => TextAt text name) NulFree where
  transfer {t u ms s} h := by
    obtain ⟨written, hlookup, _⟩ := h
    exact ⟨u written, written, hlookup, rfl⟩
  unique {t ms s s'} h h' := by
    obtain ⟨written, hlookup, hs⟩ := h
    obtain ⟨written', hlookup', hs'⟩ := h'
    cases hlookup.symm.trans hlookup'
    rw [hs, hs']
  cString_iff {ms s} h := by
    obtain ⟨written, hlookup, rfl⟩ := h
    rw [← cString_eq_iff]
    constructor
    · intro h'
      obtain ⟨written', hlookup', hs⟩ := h'
      cases hlookup.symm.trans hlookup'
      exact hs.symm
    · intro h'
      exact ⟨s, hlookup, h'.symm⟩

theorem texts_pair : Texts PairOf fun pair => NulFree pair.userId where
  transfer {t u value pair} h := by
    obtain ⟨ms, rfl, huserId, hpercentage⟩ := h
    obtain ⟨userId, huserId⟩ := (texts_text "userId").transfer huserId (u := u)
    exact ⟨⟨userId, pair.percentage⟩, ms, rfl, huserId, hpercentage⟩
  unique {t value pair pair'} h h' := by
    obtain ⟨ms, rfl, huserId, hpercentage⟩ := h
    obtain ⟨_, heq, huserId', hpercentage'⟩ := h'
    cases heq
    have hname := (texts_text "userId").unique huserId huserId'
    have hnumber := Option.some.inj (hpercentage.symm.trans hpercentage')
    cases pair
    cases pair'
    rw [UserFeePair.mk.injEq]
    exact ⟨hname, hnumber⟩
  cString_iff {value pair} h := by
    obtain ⟨ms, rfl, huserId, hpercentage⟩ := h
    rw [← (texts_text "userId").cString_iff huserId]
    constructor
    · intro h'
      obtain ⟨_, heq, huserId', _⟩ := h'
      cases heq
      exact huserId'
    · intro h'
      exact ⟨ms, rfl, h', hpercentage⟩

theorem texts_config (name : String) :
    Texts (fun text => ConfigOf text name) fun config => ∀ pair ∈ config, NulFree pair.userId where
  transfer {t u ms config} h := by
    obtain ⟨pairs, hlookup, hpairs⟩ := h
    obtain ⟨config', hpairs'⟩ := (texts_forall texts_pair).transfer hpairs (u := u)
    exact ⟨config', pairs, hlookup, hpairs'⟩
  unique {t ms config config'} h h' := by
    obtain ⟨pairs, hlookup, hpairs⟩ := h
    obtain ⟨_, hlookup', hpairs'⟩ := h'
    cases hlookup.symm.trans hlookup'
    exact (texts_forall texts_pair).unique hpairs hpairs'
  cString_iff {ms config} h := by
    obtain ⟨pairs, hlookup, hpairs⟩ := h
    rw [← (texts_forall texts_pair).cString_iff hpairs]
    constructor
    · intro h'
      obtain ⟨_, hlookup', hpairs'⟩ := h'
      cases hlookup.symm.trans hlookup'
      exact hpairs'
    · intro h'
      exact ⟨pairs, hlookup, h'⟩

theorem texts_coin : Texts CoinOf fun fee =>
    NulFree fee.coinName ∧ ∀ pair ∈ fee.config, NulFree pair.userId where
  transfer {t u value fee} h := by
    obtain ⟨ms, rfl, hcoin, hconfig⟩ := h
    obtain ⟨coinName, hcoin⟩ := (texts_text "coin").transfer hcoin (u := u)
    obtain ⟨config, hconfig⟩ := (texts_config "config").transfer hconfig (u := u)
    exact ⟨⟨coinName, config⟩, ms, rfl, hcoin, hconfig⟩
  unique {t value fee fee'} h h' := by
    obtain ⟨ms, rfl, hcoin, hconfig⟩ := h
    obtain ⟨_, heq, hcoin', hconfig'⟩ := h'
    cases heq
    have hname := (texts_text "coin").unique hcoin hcoin'
    have hpairs := (texts_config "config").unique hconfig hconfig'
    cases fee
    cases fee'
    rw [CoinSpecificFeeRecord.mk.injEq]
    exact ⟨hname, hpairs⟩
  cString_iff {value fee} h := by
    obtain ⟨ms, rfl, hcoin, hconfig⟩ := h
    rw [← (texts_text "coin").cString_iff hcoin, ← (texts_config "config").cString_iff hconfig]
    constructor
    · intro h'
      obtain ⟨_, heq, hcoin', hconfig'⟩ := h'
      cases heq
      exact ⟨hcoin', hconfig'⟩
    · intro h'
      exact ⟨ms, rfl, h'.1, h'.2⟩

theorem texts_coins : Texts CoinsOf fun fees => ∀ fee ∈ fees,
    NulFree fee.coinName ∧ ∀ pair ∈ fee.config, NulFree pair.userId where
  transfer {t u ms fees} h := by
    cases h with
    | inl habsent => exact ⟨[], .inl ⟨habsent.1, rfl⟩⟩
    | inr harray =>
      obtain ⟨values, hlookup, hvalues⟩ := harray
      obtain ⟨fees', hvalues'⟩ := (texts_forall texts_coin).transfer hvalues (u := u)
      exact ⟨fees', .inr ⟨values, hlookup, hvalues'⟩⟩
  unique {t ms fees fees'} h h' := by
    cases h with
    | inl habsent =>
      cases h' with
      | inl habsent' => rw [habsent.2, habsent'.2]
      | inr harray' =>
        obtain ⟨_, hlookup', _⟩ := harray'
        cases habsent.1.symm.trans hlookup'
    | inr harray =>
      obtain ⟨values, hlookup, hvalues⟩ := harray
      cases h' with
      | inl habsent' => cases hlookup.symm.trans habsent'.1
      | inr harray' =>
        obtain ⟨_, hlookup', hvalues'⟩ := harray'
        cases hlookup.symm.trans hlookup'
        exact (texts_forall texts_coin).unique hvalues hvalues'
  cString_iff {ms fees} h := by
    cases h with
    | inl habsent =>
      rw [habsent.2]
      exact iff_of_true (.inl ⟨habsent.1, rfl⟩) (by simp)
    | inr harray =>
      obtain ⟨values, hlookup, hvalues⟩ := harray
      rw [← (texts_forall texts_coin).cString_iff hvalues]
      constructor
      · intro h'
        cases h' with
        | inl habsent' => cases hlookup.symm.trans habsent'.1
        | inr harray' =>
          obtain ⟨_, hlookup', hvalues'⟩ := harray'
          cases hlookup.symm.trans hlookup'
          exact hvalues'
      · intro h'
        exact .inr ⟨values, hlookup, h'⟩

end Texts

section Reads

theorem string_iff (ms : Members) (name s : String) :
    string ms name = some s ↔ TextAt cString name ms s := by
  constructor
  · intro h
    obtain ⟨value, hlookup, hget⟩ := Option.bind_eq_some_iff.mp h
    obtain ⟨written, hwritten, rfl⟩ := Option.map_eq_some_iff.mp hget
    cases value with
    | string =>
      cases hwritten
      exact ⟨_, hlookup, rfl⟩
    | _ => cases hwritten
  · intro h
    obtain ⟨written, hlookup, rfl⟩ := h
    rw [string, required, hlookup]
    rfl

theorem feePair_iff (value : Value) (pair : UserFeePair) :
    ofObject feePairMembers value = some pair ↔ PairOf cString value pair := by
  constructor
  · intro h
    cases value with
    | object ms =>
      obtain ⟨userId, huserId, h⟩ := Option.bind_eq_some_iff.mp h
      obtain ⟨percentage, hpercentage, h⟩ := Option.bind_eq_some_iff.mp h
      cases h
      exact ⟨ms, rfl, (string_iff ms _ _).mp huserId, hpercentage⟩
    | _ => cases h
  · intro h
    obtain ⟨ms, rfl, huserId, hpercentage⟩ := h
    have hnumber : number ms "percentage" = some pair.percentage := hpercentage
    simp [ofObject, feePairMembers, (string_iff ms _ _).mpr huserId, hnumber]

theorem feeConfig_iff (ms : Members) (name : String) (config : UserFeeConfig) :
    feeConfigMembers ms name = some config ↔ ConfigOf cString name ms config := by
  rw [feeConfigMembers, Option.bind_eq_bind, Option.bind_eq_some_iff]
  simp only [required_array_iff, mapM_iff feePair_iff, ConfigOf]

theorem coinSpecificFee_iff (value : Value) (fee : CoinSpecificFeeRecord) :
    ofObject coinSpecificFeeMembers value = some fee ↔ CoinOf cString value fee := by
  constructor
  · intro h
    cases value with
    | object ms =>
      obtain ⟨coinName, hcoin, h⟩ := Option.bind_eq_some_iff.mp h
      obtain ⟨config, hconfig, h⟩ := Option.bind_eq_some_iff.mp h
      cases h
      exact ⟨ms, rfl, (string_iff ms _ _).mp hcoin, (feeConfig_iff ms _ _).mp hconfig⟩
    | _ => cases h
  · intro h
    obtain ⟨ms, rfl, hcoin, hconfig⟩ := h
    simp [ofObject, coinSpecificFeeMembers, (string_iff ms _ _).mpr hcoin,
      (feeConfig_iff ms _ _).mpr hconfig]

/-- The coins the handler goes past with: those of an array, and none of anything else. -/
def CoinsRead (ms : Members) (fees : List CoinSpecificFeeRecord) : Prop :=
  CoinsOf cString ms fees ∨
    ((∃ value, ms.lookup "coinSpecificFee" = some value ∧ value.isArray = false) ∧ fees = [])

theorem coins_iff (ms : Members) (fees : List CoinSpecificFeeRecord) :
    (coinSpecificFees ms).mapM (ofObject coinSpecificFeeMembers) = some fees ↔
      CoinsRead ms fees := by
  rw [mapM_iff coinSpecificFee_iff]
  cases hlookup : ms.lookup "coinSpecificFee" with
  | none => simp [coinSpecificFees, CoinsRead, CoinsOf, hlookup]
  | some value =>
    cases value with
    | array values => simp [coinSpecificFees, CoinsRead, CoinsOf, hlookup, Value.isArray]
    | _ => simp [coinSpecificFees, CoinsRead, CoinsOf, hlookup, Value.isArray]

theorem goesPast_iff (ms : Members) (sessionId : String) (record : UserFeePlanRecord) :
    GoesPast ms sessionId record ↔ TextAt cString "id" ms sessionId ∧
      TextAt cString "feePlanId" ms record.feePlanId ∧
      ConfigOf cString "default" ms record.default ∧ CoinsRead ms record.coinSpecificFee := by
  rw [goesPast_members, ← string_iff, ← string_iff, ← feeConfig_iff,
    ← coins_iff]
  constructor
  · intro h
    obtain ⟨sessionId', hid, h⟩ := Option.bind_eq_some_iff.mp h
    obtain ⟨feePlanId, hplan, h⟩ := Option.bind_eq_some_iff.mp h
    obtain ⟨default, hdefault, h⟩ := Option.bind_eq_some_iff.mp h
    obtain ⟨coinSpecificFee, hcoins, h⟩ := Option.bind_eq_some_iff.mp h
    cases h
    exact ⟨hid, hplan, hdefault, hcoins⟩
  · intro h
    obtain ⟨hid, hplan, hdefault, hcoins⟩ := h
    simp [feePlanMembers, hid, hplan, hdefault, hcoins]

end Reads

section Follows

variable {ms : Members}

theorem begins_iff : Begins ms ↔ (∃ s, TextAt cString "id" ms s) ∧
    (∃ s, TextAt cString "feePlanId" ms s) ∧ ∃ config, ConfigOf cString "default" ms config := by
  rw [(texts_text "id").exists_iff cString id, (texts_text "feePlanId").exists_iff cString id,
    (texts_config "default").exists_iff cString id]
  constructor
  · intro h
    exact ⟨h.sessionId, h.feePlanId, h.default⟩
  · intro h
    exact ⟨h.1, h.2.1, h.2.2⟩

/-- The handler goes past on what a plan begins with, unless its array of coins is ill-formed. -/
theorem passes_iff : (∃ sessionId record, GoesPast ms sessionId record) ↔
    Begins ms ∧ ∃ fees, CoinsRead ms fees := by
  rw [begins_iff]
  constructor
  · intro h
    obtain ⟨sessionId, record, h⟩ := h
    obtain ⟨hid, hplan, hdefault, hcoins⟩ := (goesPast_iff _ _ _).mp h
    exact ⟨⟨⟨_, hid⟩, ⟨_, hplan⟩, ⟨_, hdefault⟩⟩, ⟨_, hcoins⟩⟩
  · intro h
    obtain ⟨⟨⟨sessionId, hid⟩, ⟨feePlanId, hplan⟩, ⟨default, hdefault⟩⟩, ⟨fees, hcoins⟩⟩ := h
    exact ⟨sessionId, ⟨feePlanId, default, fees⟩,
      (goesPast_iff _ _ _).mpr ⟨hid, hplan, hdefault, hcoins⟩⟩

theorem wellFormed_iff : WellFormed ms ↔ Begins ms ∧ ∃ fees, CoinsOf cString ms fees := by
  rw [texts_coins.exists_iff cString id]
  constructor
  · intro h
    exact ⟨h.toBegins, h.coins⟩
  · intro h
    exact ⟨h.1, h.2⟩

/-- Where the coins are an array, if they are there, nothing is taken for none. -/
theorem coinsRead_array
    (h : ∀ value, ms.lookup "coinSpecificFee" = some value → value.isArray = true)
    {fees : List CoinSpecificFeeRecord} (hread : CoinsRead ms fees) : CoinsOf cString ms fees := by
  cases hread with
  | inl hcoins => exact hcoins
  | inr hother =>
    obtain ⟨⟨value, hlookup, hnot⟩, _⟩ := hother
    rw [h value hlookup] at hnot
    cases hnot

theorem coinsOf_array {text : String → String} {fees : List CoinSpecificFeeRecord}
    (h : CoinsOf text ms fees) :
    ∀ value, ms.lookup "coinSpecificFee" = some value → value.isArray = true := by
  intro value hlookup
  cases h with
  | inl habsent => cases habsent.1.symm.trans hlookup
  | inr harray =>
    obtain ⟨values, hlookup', _⟩ := harray
    cases hlookup'.symm.trans hlookup
    rfl

theorem follows_of_plain (h : Plain ms) : Follows ms := by
  have hpasses : (∃ sessionId record, GoesPast ms sessionId record) ↔ WellFormed ms := by
    rw [passes_iff, wellFormed_iff]
    constructor
    · intro hpast
      obtain ⟨hbegins, fees, hread⟩ := hpast
      exact ⟨hbegins, fees, coinsRead_array (h.array hbegins) hread⟩
    · intro hformed
      obtain ⟨hbegins, fees, hcoins⟩ := hformed
      exact ⟨hbegins, fees, .inl hcoins⟩
  constructor
  · exact hpasses
  · intro sessionId record hpast
    have hformed := hpasses.mp ⟨sessionId, record, hpast⟩
    obtain ⟨_, _, hdefault, hread⟩ := (goesPast_iff _ _ _).mp hpast
    have hcoins := coinsRead_array (h.array hformed.toBegins) hread
    obtain ⟨config, hconfig⟩ := hformed.default
    obtain ⟨fees, hfees⟩ := hformed.coins
    have hnul := h.nulFree ⟨record.feePlanId, config, fees⟩ hformed ⟨hconfig, hfees⟩
    have hconfigEq := (texts_config "default").read_eq hdefault hconfig hnul.default
    have hfeesEq := texts_coins.read_eq hcoins hfees hnul.coins
    constructor
    · rw [hconfigEq]
      exact hconfig
    · rw [hfeesEq]
      exact hfees

theorem plain_of_follows (h : Follows ms) : Plain ms := by
  constructor
  · intro hbegins value hlookup
    by_contra hnot
    have hread : CoinsRead ms [] := .inr ⟨⟨value, hlookup, by simpa using hnot⟩, rfl⟩
    have hformed := h.passes.mp (passes_iff.mpr ⟨hbegins, [], hread⟩)
    obtain ⟨fees, hfees⟩ := hformed.coins
    exact hnot (coinsOf_array hfees value hlookup)
  · intro record hformed hentries
    obtain ⟨sessionId, read, hpast⟩ := h.passes.mpr hformed
    have hread := h.entries sessionId read hpast
    obtain ⟨_, _, hdefault, hcoins⟩ := (goesPast_iff _ _ _).mp hpast
    rw [(texts_config "default").unique hread.default hentries.default] at hdefault
    rw [texts_coins.unique hread.coins hentries.coins] at hcoins
    constructor
    · exact ((texts_config "default").cString_iff hentries.default).mp hdefault
    · exact (texts_coins.cString_iff hentries.coins).mp
        (coinsRead_array (coinsOf_array hentries.coins) hcoins)

/-- The handler follows the grammar exactly on plain documents. -/
theorem follows_iff (ms : Members) : Follows ms ↔ Plain ms :=
  ⟨plain_of_follows, follows_of_plain⟩

/-- A plan whose coins are no array. -/
def coinsFlag : Members := [("id", .string "session"), ("feePlanId", .string "default"),
  ("default", .array []), ("coinSpecificFee", .bool true)]

theorem coins_flag_accepted : ¬ ∀ ms : Members, Follows ms := by
  intro h
  have hbegins : Begins coinsFlag :=
    ⟨⟨_, _, rfl, rfl⟩, ⟨_, _, rfl, rfl⟩, ⟨[], [], rfl, .nil⟩⟩
  have harray := (plain_of_follows (h coinsFlag)).array hbegins (.bool true) rfl
  cases harray

end Follows

end FeePlanGrammar
