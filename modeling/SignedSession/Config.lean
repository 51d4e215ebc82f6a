import SignedSession.Error
import SignedSession.Policy
import SignedSession.Text.Utf8
import SignedSession.Toml.Document

/-!
# Configuration

The two periods of a policy as numbers of seconds, read from the table `session` of a document.  A
period that the document does not give has its standard length.  Nothing else in the document
matters, as long as it is one.
-/

set_option autoImplicit false

namespace SignedSession

structure Config where
  validPeriod : UInt64
  renewalWindow : UInt64
deriving DecidableEq

namespace Config

def standard : Config where
  validPeriod := UInt64.ofNat Policy.standard.validPeriod.seconds.toNat
  renewalWindow := UInt64.ofNat Policy.standard.renewalWindow.seconds.toNat

theorem standard_eq : standard = ⟨1209600, 604800⟩ := by decide

/-! ## Reading -/

def periodOf (standard : UInt64) : Option Toml.Value → Option UInt64
  | none => some standard
  | some (.integer value) => if 0 ≤ value then some (UInt64.ofNat value.toNat) else none
  | some _ => none

/-- The periods of a session: the entries of a table, or the first elements of an array.  A date or
a time has neither, so it leaves both at their standard. -/
def ofSession : Toml.Value → Option Config
  | .dateTime _ => some standard
  | .table _ entries => do
      let validPeriod ← periodOf standard.validPeriod (entries.lookup Setting.validPeriod.key)
      let renewalWindow ←
        periodOf standard.renewalWindow (entries.lookup Setting.renewalWindow.key)
      return { validPeriod, renewalWindow }
  | .array _ elements => do
      let validPeriod ← periodOf standard.validPeriod elements[0]?
      let renewalWindow ← periodOf standard.renewalWindow elements[1]?
      return { validPeriod, renewalWindow }
  | _ => none

def ofEntries (entries : Toml.Entries) : Option Config :=
  match entries.lookup "session" with
  | none => some standard
  | some session => ofSession session

def ofText (text : String) : Except Error Config :=
  match (Toml.parse? text).bind ofEntries with
  | some config => .ok config
  | none => .error .invalidDocument

/-- The configuration of a file, of which the system gave the content or a reason why not. -/
def ofFile (content : Except String (List UInt8)) : Except Error Config :=
  match content with
  | .error reason => .error (.unreadableFile (.unavailable reason))
  | .ok bytes =>
      match Utf8.decode? bytes with
      | none => .error (.unreadableFile .notUtf8)
      | some text => ofText text

/-! ## Writing -/

def settingLine (setting : Setting) (seconds : UInt64) : String :=
  setting.key ++ " = " ++ toString seconds.toNat ++ "\n"

/-- The document of a configuration, if both periods have a place in its integers. -/
def toText? (config : Config) : Option String :=
  if Toml.Scalar.FitsInt64 config.validPeriod.toNat ∧
      Toml.Scalar.FitsInt64 config.renewalWindow.toNat then
    some ("[session]\n" ++ settingLine .validPeriod config.validPeriod ++
      settingLine .renewalWindow config.renewalWindow)
  else none

/-! ## The policy -/

/-- A number as a signed one, if it has a place among those. -/
def signed? (number : UInt64) : Option Int64 :=
  if number.toNat ≤ 9223372036854775807 then some number.toInt64 else none

def duration (setting : Setting) (seconds : UInt64) : Except Error Duration :=
  match (signed? seconds).bind fun signed => Duration.ofSeconds? signed.toInt with
  | some duration => .ok duration
  | none => .error (.invalidLifetime (.tooLarge setting seconds.toNat))

def policy (config : Config) : Except Error Policy := do
  let validPeriod ← duration .validPeriod config.validPeriod
  let renewalWindow ← duration .renewalWindow config.renewalWindow
  Policy.create validPeriod renewalWindow

end Config
end SignedSession
