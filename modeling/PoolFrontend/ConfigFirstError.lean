import PoolFrontend.ConfigChecks

/-!
# The error a load reports

A helper does nothing once an error is set, so the checks it makes report the first that fails.
The structural checks set the error whatever was set before: the last of them that fails is
reported in its place.
-/
namespace ConfigFirstError

open PartialState Json Config ConfigOutcome ConfigSections ConfigAcceptance ConfigChecks

/-- Begun with an error, a load ends with the structural failure `outer`, or leaves the error as it
is. Begun without one, it ends without one when every check passes, and otherwise with the
structural failure `inner`, or with the first failure. -/
structure Reports {α β : Type} (p : Load α) (checks : Checks β) (outer inner : Option Failure) :
    Prop where
  failed : ∀ acc, acc.error ≠ .ok → ∃ x, p acc = some (x, (outer.map Failure.record).getD acc)
  passes : ∀ y, checks = .ok y → inner = none ∧
    ∀ acc, acc.error = .ok → ∃ x, p acc = some (x, acc)
  fails : ∀ first, checks = .error first →
    ∀ acc, acc.error = .ok → ∃ x, p acc = some (x, (inner.getD first).record)

section Rules

variable {α β γ δ : Type} {p : Load α} {q : α → Load β} {c : Checks γ} {d : Checks δ}
  {outer inner outer' inner' : Option Failure}

theorem reports_pure (x : α) : Reports (pure x) (pure () : Checks Unit) none none where
  failed acc _ := ⟨x, rfl⟩
  passes _ _ := ⟨rfl, fun _ _ => ⟨x, rfl⟩⟩
  fails _ h := by cases h

/-- What a load yields has no part in what it reports. -/
theorem reports_yield (hp : Reports p c outer inner)
    (hq : ∀ x acc, ∃ y, q x acc = some (y, acc)) : Reports (p >>= q) c outer inner := by
  have hyield : ∀ {acc x acc'}, p acc = some (x, acc') → ∃ y, (p >>= q) acc = some (y, acc') := by
    intro acc x acc' hx
    obtain ⟨y, hy⟩ := hq x acc'
    exact ⟨y, by rw [bind_run hx, hy]⟩
  constructor
  · intro acc h
    obtain ⟨x, hx⟩ := hp.failed acc h
    exact hyield hx
  · intro z hz
    obtain ⟨hnone, hrun⟩ := hp.passes z hz
    apply And.intro hnone
    intro acc h
    obtain ⟨x, hx⟩ := hrun acc h
    exact hyield hx
  · intro first hfirst acc h
    obtain ⟨x, hx⟩ := hp.fails first hfirst acc h
    exact hyield hx

theorem outer_error {outer : Option Failure} {acc : LoadError} (h : acc.error ≠ .ok) :
    ((outer.map Failure.record).getD acc).error ≠ .ok := by
  cases outer with
  | none => exact h
  | some failure => exact failure.record_error

/-- What was failing before the second load began is lost to what it sets itself. -/
theorem outer_or (outer outer' : Option Failure) (acc : LoadError) :
    (outer'.map Failure.record).getD ((outer.map Failure.record).getD acc) =
      ((outer'.or outer).map Failure.record).getD acc := by
  cases outer' <;> rfl

theorem reports_bind (hp : Reports p c outer inner) (hq : ∀ x, Reports (q x) d outer' inner') :
    Reports (p >>= q) (c >>= fun _ => d) (outer'.or outer) (after c inner outer' inner') where
  failed acc h := by
    obtain ⟨x, hx⟩ := hp.failed acc h
    obtain ⟨y, hy⟩ := (hq x).failed _ (outer_error h)
    exact ⟨y, by rw [bind_run hx, hy, outer_or]⟩
  passes y hy := by
    cases c with
    | error first => cases hy
    | ok z =>
      obtain ⟨-, hp⟩ := hp.passes z rfl
      constructor
      · obtain ⟨x, -⟩ := hp {} rfl
        exact ((hq x).passes y hy).1
      · intro acc h
        obtain ⟨x, hx⟩ := hp acc h
        obtain ⟨w, hw⟩ := ((hq x).passes y hy).2 acc h
        exact ⟨w, by rw [bind_run hx, hw]⟩
  fails first hfirst acc h := by
    cases c with
    | ok z =>
      obtain ⟨x, hx⟩ := (hp.passes z rfl).2 acc h
      obtain ⟨w, hw⟩ := (hq x).fails first hfirst acc h
      exact ⟨w, by rw [bind_run hx, hw]; rfl⟩
    | error failure =>
      -- The first load fails, so the second begins with an error.
      cases hfirst
      obtain ⟨x, hx⟩ := hp.fails first rfl acc h
      obtain ⟨w, hw⟩ := (hq x).failed _ (Failure.record_error (inner.getD first))
      refine ⟨w, ?_⟩
      rw [bind_run hx, hw]
      cases outer' <;> rfl

theorem reports_congr (h : Reports p c outer inner) (houter : outer = outer')
    (hinner : inner = inner') : Reports p c outer' inner' := by
  rw [← houter, ← hinner]
  exact h

/-- A part of a section without structural checks. -/
theorem reports_part (hp : Reports p c none none) (hq : ∀ x, Reports (q x) d outer outer) :
    Reports (p >>= q) (c >>= fun _ => d) outer outer := by
  apply reports_congr (reports_bind hp hq)
  · exact Option.or_none
  · cases c with
    | ok _ => rfl
    | error _ => exact Option.or_none

/-- What follows leaves a section in the same way whatever was set before. -/
theorem reports_then (hp : Reports p c outer inner) (hq : ∀ x, Reports (q x) d outer' outer') :
    Reports (p >>= q) (c >>= fun _ => d) (outer'.or outer) (outer'.or inner) := by
  apply reports_congr (reports_bind hp hq) rfl
  cases hc : c with
  | ok x =>
    have hinner := (hp.passes x hc).1
    rw [hinner, Option.or_none]
    rfl
  | error _ => rfl

/-- The error a check sets. -/
theorem reports_error {error : EErrorType} {place name requiredType : String} {failure : Failure}
    (h : ∀ acc, setErrorDescription error place name requiredType acc =
      some ((), failure.record)) (x : α) :
    Reports (fail requiredType error place name x) (.error failure : Checks γ) (some failure)
      (some failure) where
  failed acc _ := ⟨x, by rw [fail, bind_run (h acc)]; rfl⟩
  passes _ hpasses := by cases hpasses
  fails first hfirst acc _ := ⟨x, by rw [fail, bind_run (h acc)]; rfl⟩

theorem reports_notExists (place : String) (name : FieldName) (requiredType : String) (x : α) :
    Reports (fail requiredType .notExists place name.text x)
      (.error (.notExists place name) : Checks γ)
      (some (.notExists place name)) (some (.notExists place name)) :=
  reports_error (fun _ => rfl) x

theorem reports_typeMismatch (place : String) (name : FieldName) (requiredType : RequiredType)
    (x : α) :
    Reports (fail requiredType.text .typeMismatch place name.text x)
      (.error (.typeMismatch place name requiredType) : Checks γ)
      (some (.typeMismatch place name requiredType))
      (some (.typeMismatch place name requiredType)) :=
  reports_error (fun _ => rfl) x

/-- A helper whose check passes. -/
theorem reports_read {out x : α} {y : γ} (hinert : Inert p out)
    (hruns : ∀ acc, acc.error = .ok → p acc = some (x, acc)) :
    Reports p (.ok y : Checks γ) none none where
  failed acc h := ⟨out, hinert acc h⟩
  passes _ _ := ⟨rfl, fun acc h => ⟨x, hruns acc h⟩⟩
  fails _ h := by cases h

/-- A helper whose check fails. -/
theorem reports_failure {out : α} {failure : Failure} (hinert : Inert p out)
    (hruns : ∀ acc, acc.error = .ok → ∃ x, p acc = some (x, failure.record)) :
    Reports p (.error failure : Checks γ) none none where
  failed acc h := ⟨out, hinert acc h⟩
  passes _ h := by cases h
  fails first h acc hok := by
    cases h
    exact hruns acc hok

end Rules

section Helpers

variable {α : Type} (g : Getter α) (requiredType : RequiredType) (ms : Members) (name : FieldName)
  (place : String)

/-- On a member that is present both helpers do the same. -/
theorem reports_present {p : Load α} {out : α} {v : Value} (hinert : Inert p out)
    (hread : ∀ x, g.get v = some x → ∀ acc, acc.error = .ok → p acc = some (x, acc))
    (hfails : g.get v = none → ∀ acc, acc.error = .ok →
      ∃ x, p acc = some (x, (Failure.typeMismatch place name requiredType).record)) :
    Reports p (if g.is v then .ok () else .error (.typeMismatch place name requiredType) :
      Checks Unit) none none := by
  rw [g.admits v]
  cases hx : g.get v with
  | some x => exact reports_read hinert (hread x hx)
  | none => exact reports_failure hinert (hfails hx)

/-- A required field is read and its check passes, or its check fails. -/
theorem required_run (out : α) :
    (∃ x, required g ms name.text = some x ∧
      checkRequired g requiredType ms place name = .ok () ∧
      ∀ acc, acc.error = .ok →
        loadRequired g requiredType.text (.object ms) name.text out place acc = some (x, acc)) ∨
    (∃ failure, required g ms name.text = none ∧
      checkRequired g requiredType ms place name = .error failure ∧
      ∀ acc, acc.error = .ok →
        loadRequired g requiredType.text (.object ms) name.text out place acc =
          some (out, failure.record)) := by
  unfold required checkRequired
  cases hv : ms.lookup name.text with
  | some v =>
    have hadmits := g.admits v
    rw [Option.bind_some]
    cases hx : g.get v with
    | some x =>
      rw [hx] at hadmits
      refine .inl ⟨x, rfl, if_pos hadmits, fun acc h => ?_⟩
      rw [loadRequired_object _ _ _ _ _ _ h, hv]
      simp only [hx]
      rfl
    | none =>
      have hrefused : ¬ g.is v = true := by simp [hadmits, hx]
      refine .inr ⟨_, rfl, if_neg hrefused, fun acc h => ?_⟩
      rw [loadRequired_object _ _ _ _ _ _ h, hv]
      simp only [hx]
      rfl
  | none =>
    refine .inr ⟨_, rfl, rfl, fun acc h => ?_⟩
    rw [loadRequired_object _ _ _ _ _ _ h, hv]
    rfl

theorem reports_required {field : String} {quotable : Quotable field} (out : α) :
    Reports (loadRequired g requiredType.text (.object ms) field out place)
      (checkRequired g requiredType ms place ⟨field, quotable⟩) none none := by
  have hinert := inert_required g requiredType.text (.object ms) field out place
  obtain ⟨x, -, hcheck, hrun⟩ | ⟨failure, -, hcheck, hrun⟩ :=
    required_run g requiredType ms ⟨field, quotable⟩ place out
  · rw [hcheck]
    exact reports_read hinert hrun
  · rw [hcheck]
    exact reports_failure hinert fun acc h => ⟨out, hrun acc h⟩

theorem reports_optional {field : String} {quotable : Quotable field} (out default : α) :
    Reports (loadOptional g requiredType.text (.object ms) field out default place)
      (checkOptional g requiredType ms place ⟨field, quotable⟩) none none := by
  have hinert := inert_optional g requiredType.text (.object ms) field out default place
  unfold checkOptional
  cases hv : ms.lookup field with
  | some v =>
    apply reports_present g requiredType ⟨field, quotable⟩ place hinert
    · intro x hx acc h
      rw [loadOptional_object _ _ _ _ _ _ _ h, hv]
      simp only [hx]
      rfl
    · intro hx acc h
      apply Exists.intro out
      rw [loadOptional_object _ _ _ _ _ _ _ h, hv]
      simp only [hx]
      rfl
  | none =>
    apply reports_read hinert
    intro acc h
    rw [loadOptional_object _ _ _ _ _ _ _ h, hv]
    rfl

/-- The loop keeps the strings up to the first element that is none. -/
theorem appendStrings_run (name : FieldName) (elements : List Value) (out : List String)
    (acc : LoadError) :
    (∃ read, elements.mapM Getter.string.get = some read ∧
      appendStrings name.text place elements out acc = some (out ++ read, acc)) ∨
    (elements.mapM Getter.string.get = none ∧
      ∃ read, appendStrings name.text place elements out acc =
        some (read, (Failure.typeMismatch place name .arrayOfString).record)) := by
  induction elements generalizing out with
  | nil =>
    apply Or.inl
    exact ⟨[], rfl, by rw [List.append_nil]; rfl⟩
  | cons element rest ih =>
    cases element with
    | string s =>
      have hread : appendStrings name.text place (.string s :: rest) out =
          appendStrings name.text place rest (out ++ [cString s]) := rfl
      have hget : Getter.string.get (.string s) = some (cString s) := rfl
      rw [hread, List.mapM_cons, hget]
      obtain ⟨read, hrest, hrun⟩ | ⟨hrest, hrun⟩ := ih (out ++ [cString s])
      · apply Or.inl
        exact ⟨cString s :: read, by rw [hrest]; rfl, by rw [hrun, List.append_assoc]; rfl⟩
      · apply Or.inr
        exact ⟨by rw [hrest]; rfl, hrun⟩
    | _ => exact .inr ⟨rfl, out, rfl⟩

theorem reports_strings {field : String} {quotable : Quotable field} :
    Reports (jsonParseStringArray (.object ms) field [] place)
      (checkRequired texts .arrayOfString ms place ⟨field, quotable⟩) none none := by
  have hinert := inert_stringArray (.object ms) field [] place
  unfold checkRequired
  cases hv : ms.lookup field with
  | none =>
    apply reports_failure hinert
    intro acc h
    apply Exists.intro []
    rw [stringArray_object _ _ _ h, hv]
    rfl
  | some v =>
    cases v with
    | array elements =>
      have hget : texts.get (.array elements) = elements.mapM Getter.string.get := rfl
      have hloop := appendStrings_run place ⟨field, quotable⟩ elements []
      apply reports_present texts .arrayOfString ⟨field, quotable⟩ place hinert
      · intro strings hstrings acc h
        rw [stringArray_object _ _ _ h, hv]
        obtain ⟨read, hread, hrun⟩ | ⟨hread, -⟩ := hloop acc
        · rw [hget, hread] at hstrings
          cases hstrings
          exact hrun
        · rw [hget, hread] at hstrings
          cases hstrings
      · intro hstrings acc h
        rw [stringArray_object _ _ _ h, hv]
        obtain ⟨read, hread, -⟩ | ⟨-, hrun⟩ := hloop acc
        · rw [hget, hread] at hstrings
          cases hstrings
        · exact hrun
    | _ =>
      apply reports_failure hinert
      intro acc h
      apply Exists.intro []
      rw [stringArray_object _ _ _ h, hv]
      rfl

/-- The name of a coin or an instance stands in the places of the checks that follow. -/
theorem reports_name {β : Type} {q : String → Load β} (d : String → Checks Unit)
    (outer : String → Option Failure)
    (hq : ∀ name, Reports (q name) (d name) (outer name) (outer name)) :
    Reports (jsonParseString (.object ms) "name" "" place >>= q)
      (checkRequired Getter.string .string ms place ⟨"name", by decide⟩ >>= fun _ => d (nameOf ms))
      (outer "") (outer (nameOf ms)) := by
  have hfailed : ∀ acc, acc.error ≠ .ok → ∃ x, (jsonParseString (.object ms) "name" "" place >>= q)
      acc = some (x, ((outer "").map Failure.record).getD acc) := by
    intro acc h
    obtain ⟨x, hx⟩ := (hq "").failed acc h
    have hname : jsonParseString (.object ms) "name" "" place acc = some ("", acc) :=
      inert_required Getter.string "string" (.object ms) "name" "" place acc h
    exact ⟨x, by rw [bind_run hname, hx]⟩
  obtain ⟨name, hread, hcheck, hrun⟩ | ⟨failure, hread, hcheck, hrun⟩ :=
    required_run Getter.string .string ms ⟨"name", by decide⟩ place ""
  · have hname : nameOf ms = name := by
      rw [nameOf, hread]
      rfl
    rw [hcheck, hname]
    constructor
    · exact hfailed
    · intro y hy
      obtain ⟨hnone, hrest⟩ := (hq name).passes y hy
      apply And.intro hnone
      intro acc h
      obtain ⟨x, hx⟩ := hrest acc h
      exact ⟨x, (bind_run (hrun acc h)).trans hx⟩
    · intro first hfirst acc h
      obtain ⟨x, hx⟩ := (hq name).fails first hfirst acc h
      exact ⟨x, (bind_run (hrun acc h)).trans hx⟩
  · have hname : nameOf ms = "" := by
      rw [nameOf, hread]
      rfl
    rw [hcheck, hname]
    constructor
    · exact hfailed
    · intro y hy
      cases hy
    · intro first hfirst acc h
      cases hfirst
      obtain ⟨x, hx⟩ := (hq "").failed failure.record failure.record_error
      apply Exists.intro x
      rw [← Option.getD_map Failure.record]
      exact (bind_run (hrun acc h)).trans hx

end Helpers

section Structure

variable {α β : Type} {x : α} (ms : Members) (place : String)

theorem reports_array {q : Option (List Value) → Load α} {field : String}
    {quotable : Quotable field}
    {d : List Members → Checks β} {outer inner : List Members → Option Failure}
    (hnone : q none = pure x)
    (hq : ∀ elements, ms.lookup field = some (.array elements) →
      Reports (q (some elements)) (d (elements.map members)) (outer (elements.map members))
        (inner (elements.map members))) :
    Reports (requireArray (.object ms) place field >>= q)
      (checkArray ms place ⟨field, quotable⟩ >>= d)
      (structural (checkArray ms place ⟨field, quotable⟩) outer)
      (structural (checkArray ms place ⟨field, quotable⟩) inner) := by
  rw [requireArray_object]
  unfold checkArray
  cases hv : ms.lookup field with
  | none =>
    rw [fail_leaves hnone]
    exact reports_notExists place ⟨field, quotable⟩ _ x
  | some v =>
    cases v with
    | array elements => exact hq elements hv
    | _ =>
      rw [fail_leaves hnone]
      exact reports_typeMismatch place ⟨field, quotable⟩ .arrayOfObjects x

theorem reports_memberIs {q : List Value → Load α} {d : List Members → Checks β}
    {outer inner : List Members → Option Failure}
    (hq : ∀ elements, ms.lookup "miningAddresses" = some (.array elements) →
      Reports (q elements) (d (elements.map members)) (outer (elements.map members))
        (inner (elements.map members))) :
    Reports
      (requireMember ms "miningAddresses" place "miningAddress" "array of objects" x q)
      (checkMiningAddresses ms place >>= d)
      (structural (checkMiningAddresses ms place) outer)
      (structural (checkMiningAddresses ms place) inner) := by
  rw [requireMember_eq, required]
  unfold checkMiningAddresses
  cases hv : ms.lookup "miningAddresses" with
  | none => exact reports_typeMismatch place ⟨"miningAddress", by decide⟩ .arrayOfObjects x
  | some v =>
    cases v with
    | array elements => exact hq elements hv
    | _ => exact reports_typeMismatch place ⟨"miningAddress", by decide⟩ .arrayOfObjects x

end Structure

section Lists

variable {α : Type}

theorem reports_each {fresh : α} {load : α → Value → Load α} {checks : Members → Checks Unit}
    {outer inner : Members → Option Failure}
    {elements : List Value}
    (hload : ∀ ms, .object ms ∈ elements →
      Reports (load fresh (.object ms)) (checks ms) (outer ms) (inner ms))
    (hobjects : ∀ element ∈ elements, element.isObject = true) :
    Reports (loadEach fresh load [] elements) ((elements.map members).forM checks)
      (eachOuter outer (elements.map members))
      (eachInner checks outer inner (elements.map members)) := by
  induction elements with
  | nil => exact reports_pure []
  | cons element rest ih =>
    have hrest := ih (fun ms hms => hload ms (List.mem_cons_of_mem element hms))
      fun other hother => hobjects other (List.mem_cons_of_mem element hother)
    have helement := hobjects element List.mem_cons_self
    cases element with
    | object ms =>
      apply reports_bind (hload ms List.mem_cons_self)
      intro x
      exact reports_yield hrest fun xs _ => ⟨x :: xs, rfl⟩
    | _ => cases helement

theorem eachOuter_none (rest : List Members) : eachOuter (fun _ => none) rest = none := by
  induction rest with
  | nil => rfl
  | cons ms rest ih => rw [eachOuter, ih, Option.or_none]

theorem eachInner_none (checks : Members → Checks Unit) (rest : List Members) :
    eachInner checks (fun _ => none) (fun _ => none) rest = none := by
  induction rest with
  | nil => rfl
  | cons ms rest ih =>
    rw [eachInner, ih, eachOuter_none]
    cases checks ms <;> rfl

/-- A list of sections without structural checks is one itself. -/
theorem reports_items {fresh : α} {load : α → Value → Load α} {checks : Members → Checks Unit}
    (hload : ∀ ms, Reports (load fresh (.object ms)) (checks ms) none none)
    {elements : List Value} (hobjects : ∀ element ∈ elements, element.isObject = true) :
    Reports (loadEach fresh load [] elements) ((elements.map members).forM checks) none none :=
  reports_congr (reports_each (fun ms _ => hload ms) hobjects) (eachOuter_none _)
    (eachInner_none checks _)

end Lists

section Sections

variable (ms : Members)

theorem reports_node (path : String) :
    Reports (CNodeConfig.load path {} (.object ms)) (nodeChecks path ms) none none := by
  unfold CNodeConfig.load nodeChecks
  apply reports_part (reports_required Getter.string .string ms _ _)
  intro type
  apply reports_part (reports_required Getter.string .string ms _ _)
  intro address
  apply reports_part (reports_optional Getter.string .string ms _ _ _)
  intro login
  apply reports_part (reports_optional Getter.string .string ms _ _ _)
  intro password
  apply reports_part (reports_optional Getter.string .string ms _ _ _)
  intro wallet
  exact reports_yield (reports_optional Getter.bool .boolean ms _ _ _) fun _ _ => ⟨_, rfl⟩

theorem reports_fee (path : String) :
    Reports (CFeeConfig.load path {} (.object ms)) (feeChecks path ms) none none := by
  unfold CFeeConfig.load feeChecks
  apply reports_part (reports_required Getter.string .string ms _ _)
  intro address
  exact reports_yield (reports_required float .floatingPoint ms _ _) fun _ _ => ⟨_, rfl⟩

theorem reports_miningAddress (localPath : String) :
    Reports (CMiningAddressConfig.load localPath {} (.object ms))
      (miningAddressChecks localPath ms) none none := by
  unfold CMiningAddressConfig.load miningAddressChecks
  apply reports_part (reports_required Getter.string .string ms _ _)
  intro address
  apply reports_part (reports_optional Getter.string .string ms _ _ _)
  intro privateKey
  exact reports_yield (reports_required Getter.uint .unsignedInteger ms _ _) fun _ _ => ⟨_, rfl⟩

/-- The checks of an instance end before its share difficulty is read. -/
theorem reports_instance :
    Reports (CInstanceConfig.load {} (.object ms)) (instanceChecks ms) none none := by
  unfold CInstanceConfig.load instanceChecks
  apply reports_name ms _ (instanceSectionChecks ms) fun _ => none
  intro name
  unfold instanceSectionChecks
  apply reports_part (reports_required Getter.string .string ms _ _)
  intro type
  apply reports_part (reports_required Getter.string .string ms _ _)
  intro protocol
  apply reports_part (reports_strings ms _)
  intro backends
  apply reports_yield (reports_optional Getter.uint .unsignedInteger ms _ _ _)
  intro port acc
  by_cases hstratum : protocol = "stratum"
  · simp only [hstratum, if_true, Value.hasMember_object]
    have hread := readShareDiff_eq ms fun d =>
      { name, type, protocol := "stratum", backends, port, stratumShareDiff := d,
        instanceConfig := .object ms }
    exact ⟨_, congrFun hread acc⟩
  · simp only [hstratum, if_false]
    exact ⟨_, rfl⟩

theorem reports_coin (hwork : ObjectsIn ms "getWorkNodes") (hrpc : ObjectsIn ms "RPCNodes")
    (hfees : ObjectsIn ms "fees") (haddresses : ObjectsIn ms "miningAddresses") :
    Reports (CCoinConfig.load {} (.object ms)) (coinChecks ms)
      (coinStructure ms "") (coinStructure ms (nameOf ms)) := by
  unfold CCoinConfig.load coinChecks
  apply reports_name ms _ (coinSectionChecks ms) (coinStructure ms)
  intro name
  unfold coinSectionChecks coinStructure
  apply reports_array
  · rfl
  intro getWorkNodes hgetWorkNodes
  apply reports_array
  · rfl
  intro rpcNodes hrpcNodes
  apply reports_part (reports_items (fun node => reports_node node _) (hwork _ hgetWorkNodes))
  intro _
  apply reports_part (reports_items (fun node => reports_node node _) (hrpc _ hrpcNodes))
  intro _
  apply reports_array
  · rfl
  intro fees hfee
  apply reports_part (reports_items (fun fee => reports_fee fee _) (hfees _ hfee))
  intro _
  apply reports_part (reports_required Getter.uint .unsignedInteger ms _ _)
  intro requiredConfirmations
  apply reports_part (reports_required Getter.string .string ms _ _)
  intro defaultPayoutThreshold
  apply reports_part (reports_required Getter.string .string ms _ _)
  intro minimalAllowedPayout
  apply reports_part (reports_required Getter.uint .unsignedInteger ms _ _)
  intro keepRoundTime
  apply reports_part (reports_required Getter.uint .unsignedInteger ms _ _)
  intro keepStatsTime
  apply reports_part (reports_required Getter.uint .unsignedInteger ms _ _)
  intro confirmationsCheckInterval
  apply reports_part (reports_required Getter.uint .unsignedInteger ms _ _)
  intro payoutInterval
  apply reports_part (reports_required Getter.uint .unsignedInteger ms _ _)
  intro balanceCheckInterval
  apply reports_part (reports_required Getter.uint .unsignedInteger ms _ _)
  intro statisticCheckInterval
  apply reports_part (reports_required Getter.uint .unsignedInteger ms _ _)
  intro shareTarget
  apply reports_part (reports_optional Getter.uint .unsignedInteger ms _ _ _)
  intro stratumWorkLifeTime
  apply reports_memberIs
  intro miningAddresses hminingAddresses
  apply reports_part
    (reports_items (fun address => reports_miningAddress address _) (haddresses _ hminingAddresses))
  intro _
  apply reports_part (reports_optional Getter.string .string ms _ _ _)
  intro coinbaseMsg
  apply reports_part (reports_optional float .floatingPoint ms _ _ _)
  intro profitSwitchCoeff
  apply reports_part (reports_optional Getter.string .string ms _ _ _)
  intro poolZAddr
  exact reports_yield (reports_optional Getter.string .string ms _ _ _) fun _ _ => ⟨_, rfl⟩

theorem reports_frontend (self : CPoolFrontendConfig) :
    Reports (self.loadFrontend (.object ms)) (frontendChecks ms) none none := by
  unfold CPoolFrontendConfig.loadFrontend frontendChecks
  apply reports_part (reports_required Getter.bool .boolean ms _ _)
  intro isMaster
  apply reports_part (reports_required Getter.uint .unsignedInteger ms _ _)
  intro httpPort
  apply reports_part (reports_optional Getter.uint .unsignedInteger ms _ _ _)
  intro workerThreadsNum
  apply reports_part (reports_optional Getter.uint .unsignedInteger ms _ _ _)
  intro httpThreadsNum
  apply reports_part (reports_optional Getter.string .string ms _ _ _)
  intro adminPasswordHash
  apply reports_part (reports_optional Getter.string .string ms _ _ _)
  intro observerPasswordHash
  iterate 8
    apply reports_part (reports_required Getter.string .string ms _ _)
    intro text
  apply reports_part (reports_required Getter.bool .boolean ms _ _)
  intro smtpEnabled
  iterate 4
    apply reports_part (reports_required Getter.string .string ms _ _)
    intro text
  apply reports_part (reports_optional Getter.bool .boolean ms _ _ _)
  intro smtpUseSmtps
  exact reports_yield (reports_optional Getter.bool .boolean ms _ _ _) fun _ _ => ⟨_, rfl⟩

theorem reports_lists {ms : Members} (h : ElementsAreObjects ms) (config : CPoolFrontendConfig) :
    Reports (loadLists (declared config) (.object ms)) (listChecks ms)
      (listStructure coinsOuter ms) (listStructure coinsInner ms) := by
  unfold loadLists listChecks listStructure
  apply reports_array
  · rfl
  intro coins hcoins
  apply reports_then
  · apply reports_each _ (h.coins coins hcoins)
    intro coin hcoin
    obtain ⟨hwork, hrpc, hfees, haddresses⟩ := h.lists coins hcoins coin hcoin
    exact reports_coin coin hwork hrpc hfees haddresses
  · intro loaded
    apply reports_array
    · rfl
    intro instances hinstances
    exact reports_yield (reports_items reports_instance (h.instances instances hinstances))
      fun _ _ => ⟨_, rfl⟩

theorem reports_sections {ms : Members} (h : ElementsAreObjects ms) (self : CPoolFrontendConfig) :
    ∃ outer, Reports ((declared self).loadSections (.object ms)) (documentChecks ms) outer
      (lastStructural ms) := by
  unfold documentChecks lastStructural checkFrontendObject
  cases hv : ms.lookup "poolfrontend" with
  | none =>
    rw [loadSections_missing ms (by simp [hv]), hv]
    exact ⟨_, reports_notExists "." ⟨"poolfrontend", by decide⟩ "array of objects" _⟩
  | some v =>
    cases v with
    | object object =>
      rw [loadSections_declared ms hv]
      have hlists := reports_bind (reports_frontend object (declared self)) (reports_lists h)
      apply Exists.intro
      apply reports_congr hlists rfl
      cases hchecks : frontendChecks object with
      | ok _ =>
        simp only [structural, hchecks]
        rfl
      | error _ =>
        simp only [structural, hchecks]
        exact Option.or_none
    | _ =>
      rw [loadSections_missing ms (by simp [hv]), hv]
      exact ⟨_, reports_typeMismatch "." ⟨"poolfrontend", by decide⟩ .arrayOfObjects _⟩

end Sections

/-- A document without a failure is accepted. -/
theorem sections_accepted {self : CPoolFrontendConfig} {ms : Members}
    (hobjects : ElementsAreObjects ms) {acc acc' : LoadError} (hok : acc.error = .ok)
    {result : Bool × CPoolFrontendConfig}
    (hrun : (declared self).loadSections (.object ms) acc = some (result, acc'))
    (hok' : acc'.error = .ok) : result.1 = true := by
  obtain ⟨document, hdocument, hsafe⟩ := document_safe hobjects
  cases hdocument
  have hloads := loads_sections ms self fun object hobject => (hsafe object hobject).1
  obtain ⟨x, mid, hx, ⟨-, hread⟩ | ⟨herror, -⟩⟩ := hloads.runs hsafe acc hok
  · rw [hrun] at hx
    cases hx
    obtain ⟨config, -, hresult⟩ := Option.map_eq_some_iff.mp hread
    rw [← hresult]
  · rw [hrun] at hx
    cases hx
    exact absurd hok' herror

/-- A document that is refused fails a check, and the description is that of the failure that
stands. -/
theorem load_reports {self config : CPoolFrontendConfig} {ms : Members}
    (hobjects : ElementsAreObjects ms) {description description' : String}
    (hload : (declared self).load (.object ms) description = some (false, config, description')) :
    ∃ first, documentChecks ms = .error first ∧
      description' = ((lastStructural ms).getD first).description := by
  obtain ⟨outer, hreports⟩ := reports_sections hobjects self
  cases hchecks : documentChecks ms with
  | ok y =>
    obtain ⟨⟨accepted, loaded⟩, hrun⟩ := (hreports.passes y hchecks).2 ⟨.ok, description⟩ rfl
    have haccepted := sections_accepted hobjects rfl hrun rfl
    have hread := load_run hrun
    rw [hload] at hread
    cases hread
    cases haccepted
  | error first =>
    obtain ⟨⟨accepted, loaded⟩, hrun⟩ := hreports.fails first hchecks ⟨.ok, description⟩ rfl
    have hread := load_run hrun
    rw [hload] at hread
    cases hread
    exact ⟨first, rfl, rfl⟩

/-- The error reported is the first, unless a structural check fails later. -/
theorem first_error_iff {self config : CPoolFrontendConfig} {ms : Members}
    (hobjects : ElementsAreObjects ms) {description description' : String}
    (hload : (declared self).load (.object ms) description = some (false, config, description')) :
    ∃ first, documentChecks ms = .error first ∧
      (description' = first.description ↔
        ∀ last, lastStructural ms = some last → last = first) := by
  obtain ⟨first, hchecks, hread⟩ := load_reports hobjects hload
  refine ⟨first, hchecks, ?_⟩
  rw [hread]
  constructor
  · intro h last hlast
    rw [hlast] at h
    exact description_injective h
  · intro h
    cases hlast : lastStructural ms with
    | none => rfl
    | some last =>
      rw [h last hlast]
      rfl

/-- A section without fields: its first check asks for `isMaster`. -/
def emptySection : Members := [
  ("poolfrontend", .object []), ("coins", .array []), ("instances", .array [])]

theorem emptySection_objects : ElementsAreObjects emptySection where
  coins elements h := by
    cases h
    exact List.forall_mem_nil _
  instances elements h := by
    cases h
    exact List.forall_mem_nil _
  lists coins h coin hcoin := by
    cases h
    cases hcoin

theorem first_error_iff_isMaster :
    ∃ first, documentChecks emptySection = .error first ∧
      ("Required parameter 'isMaster' does not exists at poolfrontend" = first.description ↔
        ∀ last, lastStructural emptySection = some last → last = first) :=
  @first_error_iff {} _ emptySection emptySection_objects "" _ rfl

/-- The same section in a document without coins: the error of `isMaster` is replaced. -/
theorem coins_replace_isMaster :
    ElementsAreObjects [("poolfrontend", .object [])] ∧
    (∃ config, (declared {}).load (.object [("poolfrontend", .object [])]) "" =
      some (false, config, "Required parameter 'coins' does not exists at .")) ∧
    documentChecks [("poolfrontend", .object [])] =
      .error (.notExists "poolfrontend" ⟨"isMaster", by decide⟩) ∧
    (Failure.notExists "poolfrontend" ⟨"isMaster", by decide⟩).description =
      "Required parameter 'isMaster' does not exists at poolfrontend" ∧
    "Required parameter 'coins' does not exists at ." ≠
      "Required parameter 'isMaster' does not exists at poolfrontend" := by
  refine ⟨⟨?_, ?_, ?_⟩, ⟨_, rfl⟩, rfl, rfl, by decide⟩
  · intro elements h
    cases h
  · intro elements h
    cases h
  · intro coins h
    cases h

end ConfigFirstError
