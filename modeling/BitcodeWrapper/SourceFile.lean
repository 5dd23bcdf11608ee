import BitcodeWrapper.ArgumentVector
import BitcodeWrapper.Path.Extension

/-!
The translation unit of a command line and its language, judged by the file name extension alone.
-/
namespace BitcodeWrapper

inductive Language where
  | unknown
  | c
  | cpp
  | objc
  deriving Repr, DecidableEq

namespace Language

def index : Language → Nat
  | unknown => 0
  | c => 1
  | cpp => 2
  | objc => 3

def name : Language → String
  | unknown => "UNKNOWN"
  | c => "C"
  | cpp => "CPP"
  | objc => "OBJC"

def all : List Language := [unknown, c, cpp, objc]

def ofIndex? (n : Nat) : Option Language := all.find? (·.index = n)

theorem ofIndex?_index (l : Language) : ofIndex? l.index = some l := by
  cases l <;> rfl

/-- The extensions tell capitals from small letters. -/
def ofExtension : String → Language
  | ".c" => c
  | ".cpp" | ".cc" | ".cxx" | ".c++" => cpp
  | ".m" => objc
  | _ => unknown

def ofFile (path : String) : Language := ofExtension (Path.extension path)

end Language

structure SourceFile where
  name : String
  language : Language
  deriving Repr, DecidableEq

namespace SourceFile

def none : SourceFile := ⟨"", .unknown⟩

def named (path : String) : SourceFile :=
  let name := Path.base path
  ⟨name, .ofFile name⟩

def compileFlag : String := "-c"

/-- The value of the compile flag, whatever its extension; without one, the first argument of a known
language. -/
def ofArguments (args : Arguments) : SourceFile :=
  let value := args.valueOf compileFlag
  if value != "" then named value
  else ((args.map named).find? (·.language != .unknown)).getD none

end SourceFile

end BitcodeWrapper
