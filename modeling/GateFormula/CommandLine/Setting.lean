import GateFormula.Number.Reader
import GateFormula.Text.Blank

/-!
# Settings on the command line

A setting `NAME=VALUE` gives a variable its value before a formula is evaluated. The
name ends at the first equals sign; it is trimmed and may be written between sigils
as in a formula. The value is any number that can be read.
-/

namespace GateFormula.CommandLine

/-- Why a text is no setting. -/
inductive SettingError where
  /-- There is no equals sign. -/
  | missingEquals (text : String)
  /-- There is no name. -/
  | missingName (text : String)
  /-- The value is no number. -/
  | invalidValue (text : String) (cause : Number.ReadError)
deriving DecidableEq, Repr

/-- Wording of a refusal. -/
def SettingError.message : SettingError → String
  | .missingEquals text => "expected NAME=VALUE, got '" ++ text ++ "'"
  | .missingName text => "missing variable name in '" ++ text ++ "'"
  | .invalidValue text cause => "invalid value in '" ++ text ++ "': " ++ cause.message

/-- The characters before the first equals sign and those after it. -/
def splitAtEquals : List Char → Option (List Char × List Char)
  | [] => none
  | c :: cs =>
    if c = '=' then some ([], cs)
    else (splitAtEquals cs).map fun (before, after) => (c :: before, after)

/-- A text without the sigils at its two ends. -/
def dropSigils (cs : List Char) : List Char :=
  ((cs.dropWhile (· = '$')).reverse.dropWhile (· = '$')).reverse

/-- Read a setting. -/
def readSetting (text : String) : Except SettingError (String × Float) :=
  match splitAtEquals text.toList with
  | none => .error (.missingEquals text)
  | some (before, after) =>
    let name := dropSigils (Text.trim before)
    if name.isEmpty then .error (.missingName text)
    else
      match Number.read (Text.trim after) with
      | .ok value => .ok (String.ofList name, value)
      | .error cause => .error (.invalidValue text cause)

end GateFormula.CommandLine
