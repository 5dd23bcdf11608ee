import BitcodeWrapper.Text.Loose

/-!
Why the operating system refuses: the causes, their numbers and their texts.
-/
namespace BitcodeWrapper

inductive Errno where
  | noSuchFile
  | listTooLong
  | notExecutableFormat
  | outOfMemory
  | permissionDenied
  | fileExists
  | notDirectory
  | isDirectory
  | nameTooLong
  | tooManyLinks
  deriving Repr, DecidableEq

namespace Errno

def number : Errno → Nat
  | noSuchFile => 2
  | listTooLong => 7
  | notExecutableFormat => 8
  | outOfMemory => 12
  | permissionDenied => 13
  | fileExists => 17
  | notDirectory => 20
  | isDirectory => 21
  | nameTooLong => 36
  | tooManyLinks => 40

def text : Errno → String
  | noSuchFile => "No such file or directory"
  | listTooLong => "Argument list too long"
  | notExecutableFormat => "Exec format error"
  | outOfMemory => "Cannot allocate memory"
  | permissionDenied => "Permission denied"
  | fileExists => "File exists"
  | notDirectory => "Not a directory"
  | isDirectory => "Is a directory"
  | nameTooLong => "File name too long"
  | tooManyLinks => "Too many levels of symbolic links"

def all : List Errno :=
  [noSuchFile, listTooLong, notExecutableFormat, outOfMemory, permissionDenied, fileExists,
    notDirectory, isDirectory, nameTooLong, tooManyLinks]

def ofNumber? (n : Nat) : Option Errno := all.find? (·.number = n)

theorem ofNumber?_number (e : Errno) : ofNumber? e.number = some e := by
  cases e <;> rfl

end Errno

/-- A refusal of the operating system, with the path that it is about if it is about one. -/
structure OsError where
  errno : Errno
  text : String
  path : Option LooseText
  deriving Repr, DecidableEq

namespace OsError

def on (errno : Errno) (path : LooseText) : OsError := ⟨errno, errno.text, some path⟩

/-- The refusal as it is told to one who gave the path in this form. -/
def givenAs (e : OsError) (path : LooseText) : OsError := { e with path := e.path.map fun _ => path }

def message (e : OsError) : String :=
  let refusal := "[Errno " ++ toString e.errno.number ++ "] " ++ e.text
  match e.path with
  | some path => refusal ++ ": " ++ path.quoted
  | none => refusal

end OsError

end BitcodeWrapper
