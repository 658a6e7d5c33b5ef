import PoolFrontend.Server

/-!
# Reading the fields of a request

The helpers of the handlers, one per type and form. A scalar variable that the
source leaves unset starts as `none`, and reading it while unset aborts; a string
or a field of a record starts with a value. Each helper has the lemma saying what
it reads of an object.
-/
namespace RequestFields

open Json Poolcore Server

/-- A string that has to be there. -/
def jsonParseString (document : Value) (name out : String) : Parse String :=
  parseRequired Getter.string document name out

/-- A string that may be missing, but has no other type. -/
def jsonParseStringOr (document : Value) (name out default : String) : Parse String :=
  parseOptional Getter.string document name out default

def jsonParseInt64 (document : Value) (name : String) (out : Option Int) : Parse (Option Int) :=
  parseRequired (Getter.int64.wrap some) document name out

def jsonParseInt64Or (document : Value) (name : String) (out : Option Int) (default : Int) :
    Parse (Option Int) :=
  parseOptional (Getter.int64.wrap some) document name out (some default)

def jsonParseUInt64Or (document : Value) (name : String) (out default : UInt64) : Parse UInt64 :=
  parseOptional Getter.uint64 document name out default

def jsonParseUIntOr (document : Value) (name : String) (out : Option UInt32) (default : UInt32) :
    Parse (Option UInt32) :=
  parseOptional (Getter.uint.wrap some) document name out (some default)

def jsonParseBoolean (document : Value) (name : String) (out : Bool) : Parse Bool :=
  parseRequired Getter.bool document name out

def jsonParseBooleanOr (document : Value) (name : String) (out default : Bool) : Parse Bool :=
  parseOptional Getter.bool document name out default

/-- `jsonParseBoolean` with a default, on a variable that starts unset. -/
def jsonParseUnsetBooleanOr (document : Value) (name : String) (out : Option Bool)
    (default : Bool) : Parse (Option Bool) :=
  parseOptional (Getter.bool.wrap some) document name out (some default)

/-- Any number, as a double. -/
def jsonParseNumber (document : Value) (name : String) (out : Double) : Parse Double :=
  parseRequired Getter.number document name out

/-- None of the eight members is required. -/
def parseUserCredentials (document : Value) (credentials : Credentials) : Parse Credentials := do
  let login ← jsonParseStringOr document "login" credentials.login ""
  let password ← jsonParseStringOr document "password" credentials.password ""
  let name ← jsonParseStringOr document "name" credentials.name ""
  let eMail ← jsonParseStringOr document "email" credentials.eMail ""
  let twoFactor ← jsonParseStringOr document "totp" credentials.twoFactor ""
  let isActive ← jsonParseBooleanOr document "isActive" credentials.isActive false
  let isReadOnly ← jsonParseBooleanOr document "isReadOnly" credentials.isReadOnly false
  let feePlan ← jsonParseStringOr document "feePlanId" credentials.feePlan ""
  return { credentials with login, password, name, eMail, twoFactor, isActive, isReadOnly, feePlan }

/-- The session and the login it acts for; two endpoints name the session `sessionId`. -/
def sessionTarget (document : Value) (idName : String) : Parse (String × String) := do
  let sessionId ← jsonParseString document idName ""
  let targetLogin ← jsonParseStringOr document "targetLogin" "" ""
  return (sessionId, targetLogin)

/-- A coin that is missing is the empty one. -/
def sessionTargetCoin (document : Value) : Parse (String × String × String) := do
  let sessionId ← jsonParseString document "id" ""
  let targetLogin ← jsonParseStringOr document "targetLogin" "" ""
  let coin ← jsonParseStringOr document "coin" "" ""
  return (sessionId, targetLogin, coin)

/-- The interval of the history endpoints, by default the last day in hours. -/
def timeGrid (document : Value) (currentTime : Int) :
    Parse (Option Int × Option Int × Option Int) := do
  let timeFrom ← jsonParseInt64Or document "timeFrom" none (currentTime - 24 * 3600)
  let timeTo ← jsonParseInt64Or document "timeTo" none currentTime
  let groupByInterval ← jsonParseInt64Or document "groupByInterval" none 3600
  return (timeFrom, timeTo, groupByInterval)

section Members

variable (ms : Members) (name : String)

/-- The members of a request, by type; the suffix `Or` marks a default. -/
def string : Option String := required Getter.string ms name
def stringOr (default : String) : Option String := Json.optional Getter.string ms name default
def int64 : Option Int := required Getter.int64 ms name
def int64Or (default : Int) : Option Int := Json.optional Getter.int64 ms name default
def uint64Or (default : UInt64) : Option UInt64 := Json.optional Getter.uint64 ms name default
def uintOr (default : UInt32) : Option UInt32 := Json.optional Getter.uint ms name default
def boolean : Option Bool := required Getter.bool ms name
def booleanOr (default : Bool) : Option Bool := Json.optional Getter.bool ms name default
def number : Option Double := required Getter.number ms name

/-- The members of `parseUserCredentials`. -/
def credentials : Option Credentials := do
  let login ← stringOr ms "login" ""
  let password ← stringOr ms "password" ""
  let name ← stringOr ms "name" ""
  let eMail ← stringOr ms "email" ""
  let twoFactor ← stringOr ms "totp" ""
  let isActive ← booleanOr ms "isActive" false
  let isReadOnly ← booleanOr ms "isReadOnly" false
  let feePlan ← stringOr ms "feePlanId" ""
  return { login, password, name, eMail, twoFactor, isActive, isReadOnly, feePlan }

/-- What `sessionTarget` reads of an object. -/
def sessionTargetMembers (idName : String) : Option (String × String) := do
  let sessionId ← string ms idName
  let targetLogin ← stringOr ms "targetLogin" ""
  return (sessionId, targetLogin)

/-- What `sessionTargetCoin` reads of an object. -/
def sessionTargetCoinMembers : Option (String × String × String) := do
  let sessionId ← string ms "id"
  let targetLogin ← stringOr ms "targetLogin" ""
  let coin ← stringOr ms "coin" ""
  return (sessionId, targetLogin, coin)

/-- The session of a group that begins with the session and its target. -/
theorem session_of_bind {α : Type} {idName : String} {rest : String → String → Option α}
    {fields : α}
    (h : (do
      let sessionId ← string ms idName
      let targetLogin ← stringOr ms "targetLogin" ""
      rest sessionId targetLogin) = some fields) :
    ∃ sessionId targetLogin, sessionTargetMembers ms idName = some (sessionId, targetLogin) ∧
      rest sessionId targetLogin = some fields := by
  obtain ⟨sessionId, hid, h⟩ := Option.bind_eq_some_iff.mp h
  obtain ⟨targetLogin, htarget, h⟩ := Option.bind_eq_some_iff.mp h
  exact ⟨sessionId, targetLogin, by simp [sessionTargetMembers, hid, htarget], h⟩

/-- The session is the member of its name. -/
theorem sessionTarget_id {idName sessionId targetLogin : String}
    (h : sessionTargetMembers ms idName = some (sessionId, targetLogin)) :
    string ms idName = some sessionId := by
  obtain ⟨_, hid, h⟩ := Option.bind_eq_some_iff.mp h
  obtain ⟨_, _, h⟩ := Option.bind_eq_some_iff.mp h
  cases h
  exact hid

theorem sessionTargetCoin_session {sessionId targetLogin coin : String}
    (h : sessionTargetCoinMembers ms = some (sessionId, targetLogin, coin)) :
    sessionTargetMembers ms "id" = some (sessionId, targetLogin) := by
  obtain ⟨_, _, hsession, h⟩ := session_of_bind ms h
  obtain ⟨_, _, h⟩ := Option.bind_eq_some_iff.mp h
  cases h
  exact hsession

/-- What `timeGrid` reads of an object. -/
def timeGridMembers (currentTime : Int) : Option (Int × Int × Int) := do
  let timeFrom ← int64Or ms "timeFrom" (currentTime - 24 * 3600)
  let timeTo ← int64Or ms "timeTo" currentTime
  let groupByInterval ← int64Or ms "groupByInterval" 3600
  return (timeFrom, timeTo, groupByInterval)

/-- A variable that starts unset keeps the value in an option, and is read like another. -/
theorem required_wrap {α : Type} (g : Getter α) :
    required (g.wrap some) ms name = (required g ms name).map some := by
  cases h : ms.lookup name <;> simp [required, Getter.wrap, h]

theorem optional_wrap {α : Type} (g : Getter α) (default : α) :
    Json.optional (g.wrap some) ms name (some default) =
      (Json.optional g ms name default).map some := by
  cases h : ms.lookup name <;> simp [Json.optional, Getter.wrap, h]

/-- Each helper reads its member, whatever its variable has held before. -/
theorem reads_string (out : String) :
    Reads (jsonParseString (.object ms) name out) (string ms name) :=
  reads_required _ ms name out

theorem reads_stringOr (out default : String) :
    Reads (jsonParseStringOr (.object ms) name out default) (stringOr ms name default) :=
  reads_optional _ ms name out default

theorem reads_int64 (out : Option Int) :
    Reads (jsonParseInt64 (.object ms) name out) ((int64 ms name).map some) :=
  reads_congr (reads_required _ ms name out) (required_wrap ms name _)

theorem reads_int64Or (out : Option Int) (default : Int) :
    Reads (jsonParseInt64Or (.object ms) name out default)
      ((int64Or ms name default).map some) :=
  reads_congr (reads_optional _ ms name out _) (optional_wrap ms name _ default)

theorem reads_uint64Or (out default : UInt64) :
    Reads (jsonParseUInt64Or (.object ms) name out default) (uint64Or ms name default) :=
  reads_optional _ ms name out default

theorem reads_uintOr (out : Option UInt32) (default : UInt32) :
    Reads (jsonParseUIntOr (.object ms) name out default) ((uintOr ms name default).map some) :=
  reads_congr (reads_optional _ ms name out _) (optional_wrap ms name _ default)

theorem reads_boolean (out : Bool) :
    Reads (jsonParseBoolean (.object ms) name out) (boolean ms name) :=
  reads_required _ ms name out

theorem reads_booleanOr (out default : Bool) :
    Reads (jsonParseBooleanOr (.object ms) name out default) (booleanOr ms name default) :=
  reads_optional _ ms name out default

theorem reads_unsetBooleanOr (out : Option Bool) (default : Bool) :
    Reads (jsonParseUnsetBooleanOr (.object ms) name out default)
      ((booleanOr ms name default).map some) :=
  reads_congr (reads_optional _ ms name out _) (optional_wrap ms name _ default)

theorem reads_number (out : Double) :
    Reads (jsonParseNumber (.object ms) name out) (number ms name) :=
  reads_required _ ms name out

theorem reads_credentials :
    Reads (parseUserCredentials (.object ms) {}) (credentials ms) :=
  reads_bind (reads_stringOr ms _ _ _) fun _ => reads_bind (reads_stringOr ms _ _ _) fun _ =>
  reads_bind (reads_stringOr ms _ _ _) fun _ => reads_bind (reads_stringOr ms _ _ _) fun _ =>
  reads_bind (reads_stringOr ms _ _ _) fun _ => reads_bind (reads_booleanOr ms _ _ _) fun _ =>
  reads_bind (reads_booleanOr ms _ _ _) fun _ => reads_bind (reads_stringOr ms _ _ _) fun _ =>
  reads_pure _

theorem reads_sessionTarget (idName : String) :
    Reads (sessionTarget (.object ms) idName) (sessionTargetMembers ms idName) :=
  reads_bind (reads_string ms _ _) fun _ => reads_bind (reads_stringOr ms _ _ _) fun _ =>
  reads_pure _

theorem reads_sessionTargetCoin :
    Reads (sessionTargetCoin (.object ms)) (sessionTargetCoinMembers ms) :=
  reads_bind (reads_string ms _ _) fun _ => reads_bind (reads_stringOr ms _ _ _) fun _ =>
  reads_bind (reads_stringOr ms _ _ _) fun _ => reads_pure _

/-- The three variables start unset, and their defaults set them. -/
theorem reads_timeGrid (currentTime : Int) :
    Reads (timeGrid (.object ms) currentTime)
      ((timeGridMembers ms currentTime).map fun (a, b, c) => (some a, some b, some c)) := by
  refine reads_congr (reads_bind (reads_int64Or ms _ _ _) fun _ =>
    reads_bind (reads_int64Or ms _ _ _) fun _ => reads_bind (reads_int64Or ms _ _ _) fun _ =>
    reads_pure _) ?_
  simp [timeGridMembers, Option.map_bind, Option.bind_map]

/-- A handler goes on with what was read of an object, or answers with an error. -/
@[simp] theorem withFields_string (out : String) (body : String → Handler Unit) :
    withFields (jsonParseString (.object ms) name out) body = accepted (string ms name) body :=
  withFields_reads (reads_string ms name out) body

@[simp] theorem withFields_stringOr (out default : String) (body : String → Handler Unit) :
    withFields (jsonParseStringOr (.object ms) name out default) body =
      accepted (stringOr ms name default) body :=
  withFields_reads (reads_stringOr ms name out default) body

@[simp] theorem withFields_credentials (body : Credentials → Handler Unit) :
    withFields (parseUserCredentials (.object ms) {}) body = accepted (credentials ms) body :=
  withFields_reads (reads_credentials ms) body

@[simp] theorem withFields_sessionTarget (idName : String)
    (body : String × String → Handler Unit) :
    withFields (sessionTarget (.object ms) idName) body =
      accepted (sessionTargetMembers ms idName) body :=
  withFields_reads (reads_sessionTarget ms idName) body

@[simp] theorem withFields_sessionTargetCoin (body : String × String × String → Handler Unit) :
    withFields (sessionTargetCoin (.object ms)) body =
      accepted (sessionTargetCoinMembers ms) body :=
  withFields_reads (reads_sessionTargetCoin ms) body

end Members

end RequestFields
