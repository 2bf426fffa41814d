import SurfaceAudit.Calendar
import SurfaceAudit.Json.Defect
import SurfaceAudit.Text.Quoted
import SurfaceAudit.Text.Utf8

/-!
# Faults

What can go wrong, by cause, and the words for it. A fault with a value at fault keeps the written
form of that value.
-/

namespace SurfaceAudit

/-- Why a file or directory cannot be used. -/
inductive FileDefect where
  /-- There is nothing at the path. -/
  | missing
  /-- The path names a directory. -/
  | directory
  /-- The path goes through something that is no directory. -/
  | throughFile
  /-- The path goes round in a circle of links. -/
  | linkLoop
  /-- There is something at the path already. -/
  | present
  /-- A name on the path, or the path, has too many bytes. -/
  | nameTooLong
  deriving DecidableEq

/-- The words for a defect of a file. -/
def FileDefect.message : FileDefect → Text
  | .missing => "[Errno 2] No such file or directory"
  | .directory => "[Errno 21] Is a directory"
  | .throughFile => "[Errno 20] Not a directory"
  | .linkLoop => "[Errno 40] Too many levels of symbolic links"
  | .present => "[Errno 17] File exists"
  | .nameTooLong => "[Errno 36] File name too long"

/-- A value of the wrong kind, by what was asked of it. -/
inductive KindDefect where
  /-- The value is no number and no text that spells one. -/
  | notNumeric (kind : Text)
  /-- The value has no elements. -/
  | notIterable (kind : Text)
  /-- The value cannot be asked whether it holds something. -/
  | notContainer (kind : Text)
  /-- The value has parts, but they are not looked up by name. -/
  | badIndex (kind : Text)
  /-- The value cannot be a key. -/
  | unhashable (kind : Text)
  /-- There is no such setting. -/
  | unknownSetting (name : Text)
  /-- The value has no JSON form. -/
  | notJson (kind : Text)
  /-- The value is not a text. -/
  | notText (kind : Text)
  /-- The value is not a path. -/
  | notPath (kind : Text)
  deriving DecidableEq

/-- The words for a value of the wrong kind. -/
def KindDefect.message : KindDefect → Text
  | .notNumeric kind =>
    ("int() argument must be a string, a bytes-like object or a real number, not '" : Text) ++
      kind ++ "'"
  | .notIterable kind => ("'" : Text) ++ kind ++ "' object is not iterable"
  | .notContainer kind => ("argument of type '" : Text) ++ kind ++ "' is not iterable"
  | .badIndex kind => kind ++ " indices must be integers or slices, not str"
  | .unhashable kind => ("unhashable type: '" : Text) ++ kind ++ "'"
  | .unknownSetting name => ("got an unexpected keyword argument '" : Text) ++ name ++ "'"
  | .notJson kind => ("Object of type " : Text) ++ kind ++ " is not JSON serializable"
  | .notText kind => ("expected str instance, " : Text) ++ kind ++ " found"
  | .notPath kind =>
    ("expected str, bytes or os.PathLike object, not " : Text) ++ kind

/-- Why a report may not be written to a path. -/
inductive OutputDefect where
  /-- There is no path. -/
  | empty
  /-- The path lies in a directory of the system. -/
  | sensitive (directory : Text)
  /-- The directory of the path does not exist. -/
  | noParent (directory : Text)
  /-- The path names a program or script that exists. -/
  | executable (path : Text)
  deriving DecidableEq

/-- The words for a path that no report may be written to. -/
def OutputDefect.message : OutputDefect → Text
  | .empty => "Output path cannot be empty"
  | .sensitive d => ("Cannot write to sensitive directory: " : Text) ++ d
  | .noParent d => ("Parent directory does not exist: " : Text) ++ d
  | .executable p => ("Cannot overwrite executable file: " : Text) ++ p

/-- Why a file's text cannot be had. -/
inductive ReadDefect where
  /-- The file cannot be opened. -/
  | file (defect : FileDefect) (path : Text)
  /-- The file's bytes are no text. -/
  | bytes (defect : Utf8.Defect)
  deriving DecidableEq

/-- The words for an unreadable file. -/
def ReadDefect.message : ReadDefect → Text
  | .file d path => d.message ++ ": " ++ path.quoted
  | .bytes d => d.message

/-- Why a directory has no usable plugin manifest. -/
inductive ManifestDefect where
  /-- There is no such directory. -/
  | noDirectory (path : Text)
  /-- The directory has no manifest. -/
  | noManifest (path : Text)
  /-- The manifest is not JSON. -/
  | json (path : Text) (defect : Json.Defect)
  /-- The manifest cannot be read. -/
  | unreadable (path : Text) (defect : ReadDefect)
  /-- The manifest is not an object. -/
  | notObject (path : Text)
  /-- The manifest has no name. -/
  | noName (path : Text)
  deriving DecidableEq

/-- The words for a missing or unusable manifest. -/
def ManifestDefect.message : ManifestDefect → Text
  | .noDirectory path => ("Plugin directory not found: " : Text) ++ path
  | .noManifest path =>
    ("No plugin manifest found in " : Text) ++ path ++ " (expected .claude-plugin/plugin.json)"
  | .json path d => ("Invalid JSON in manifest " : Text) ++ path ++ ": " ++ d.message
  | .unreadable path d => ("Error reading manifest " : Text) ++ path ++ ": " ++ d.message
  | .notObject path => ("Manifest is not a JSON object: " : Text) ++ path
  | .noName path => ("plugin.json missing required \"name\" field in " : Text) ++ path

/-- Everything that can go wrong, by cause. -/
inductive Fault where
  /-- The value is no verdict. -/
  | notVerdict (shown : Text)
  /-- The value is no target. -/
  | notTarget (shown : Text)
  /-- An impact lacks a target. -/
  | targetMissing (name : Text)
  /-- Evidence comes from a source that there is not. -/
  | unknownSource (shown : Text)
  /-- The text spells no integer in a base. -/
  | notInteger (base : Nat) (shown : Text)
  /-- The text spells no number. -/
  | notReal (shown : Text)
  /-- An integer has too many decimal digits to be read, or to be written. -/
  | tooManyDigits (read : Option Nat)
  /-- What is not a number has no integer part. -/
  | nanToInteger
  /-- Numbers name no day or moment. -/
  | calendar (defect : Calendar.Defect)
  /-- A number is too large for a code point. -/
  | notCodePoint
  /-- A number is too large to be taken for a code point at all. -/
  | codePointSize
  /-- Bytes are no text. -/
  | undecodable (defect : Utf8.Defect)
  /-- A text has no bytes. -/
  | unencodable (obstacle : Utf8.Obstacle)
  /-- A path holds a null. -/
  | nullInPath
  /-- A section of the configuration is not a mapping. -/
  | sectionShape (name kind : Text)
  /-- There is no such threshold for the gate. -/
  | threshold (shown : Text)
  /-- A report may not be written to the path. -/
  | output (defect : OutputDefect)
  /-- A plugin has no usable manifest. -/
  | manifest (defect : ManifestDefect)
  /-- There is no such report format. -/
  | reportFormat (shown : Text)
  /-- A value that contains itself has no JSON form. -/
  | circular
  /-- A value is of the wrong kind. -/
  | kind (defect : KindDefect)
  /-- A table lacks a key. -/
  | keyMissing (shown : Text)
  /-- A value of a kind lacks a part that is asked of it. -/
  | partMissing (kind part : Text)
  /-- An empty text has no first letter. -/
  | emptyText
  /-- An infinity has no integer part. -/
  | infinityToInteger
  /-- An integer is too large for a floating point number. -/
  | integerToReal
  /-- A repetition count of a pattern is too large. -/
  | repetition
  /-- The flags of a pattern for ASCII and for Unicode exclude each other. -/
  | alphabetFlags
  /-- A file or directory cannot be used. -/
  | file (defect : FileDefect) (path : Text)
  /-- A path cannot be made plain, since it goes round in a circle of links. -/
  | circularPath (path : Text)
  deriving DecidableEq

/-- An operation that may fail with a fault. -/
abbrev Attempt (α : Type) := Except Fault α

namespace Fault

/-- The end of the words about integers with too many digits. -/
def digitsAdvice : Text := "; use sys.set_int_max_str_digits() to increase the limit"

/-- The words for a fault. -/
def message : Fault → Text
  | .notVerdict shown => shown ++ " is not a valid Verdict"
  | .notTarget shown => shown ++ " is not a valid Target"
  | .targetMissing name => ("Impact vector is missing target: " : Text) ++ name
  | .unknownSource shown => ("Unknown evidence source: " : Text) ++ shown
  | .notInteger base shown =>
    ("invalid literal for int() with base " : Text) ++ Text.ofNat base ++ ": " ++ shown.take 200
  | .notReal shown => ("could not convert string to float: " : Text) ++ shown
  | .tooManyDigits none =>
    ("Exceeds the limit (4300 digits) for integer string conversion" : Text) ++ digitsAdvice
  | .tooManyDigits (some n) =>
    ("Exceeds the limit (4300 digits) for integer string conversion: value has " : Text) ++
      Text.ofNat n ++ " digits" ++ digitsAdvice
  | .nanToInteger => "cannot convert float NaN to integer"
  | .calendar d => d.message
  | .notCodePoint => "chr() arg not in range(0x110000)"
  | .codePointSize => "Python int too large to convert to C int"
  | .undecodable d => d.message
  | .unencodable o => o.message
  | .nullInPath => "embedded null byte"
  | .sectionShape name found =>
    ("Config section '" : Text) ++ name ++ "' must be a mapping, got " ++ found
  | .threshold shown => ("Invalid gate threshold: " : Text) ++ shown
  | .output d => d.message
  | .manifest d => d.message
  | .reportFormat shown => ("Unknown output format: " : Text) ++ shown
  | .circular => "Circular reference detected"
  | .kind d => d.message
  | .keyMissing shown => shown
  | .partMissing found part =>
    ("'" : Text) ++ found ++ "' object has no attribute '" ++ part ++ "'"
  | .emptyText => "string index out of range"
  | .infinityToInteger => "cannot convert float infinity to integer"
  | .integerToReal => "int too large to convert to float"
  | .repetition => "the repetition number is too large"
  | .alphabetFlags => "ASCII and UNICODE flags are incompatible"
  | .file d path => d.message ++ ": " ++ path.quoted
  | .circularPath path => ("Symlink loop from " : Text) ++ path.quoted

/-- The fault lies in a value that was given, and its words tell what is wrong with it. Other faults
come from files, from values of the wrong kind, and from numbers beyond all bounds. -/
def isAboutInput : Fault → Bool
  | .kind _ | .keyMissing _ | .partMissing _ _ | .emptyText | .infinityToInteger
  | .integerToReal | .repetition | .codePointSize | .file _ _ | .circularPath _ => false
  | _ => true

end Fault

end SurfaceAudit
