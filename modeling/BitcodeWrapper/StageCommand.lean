import BitcodeWrapper.SourceFile

/-!
The command lines of the three stages. Each is derived from the arguments given, never from the
command line of another stage.
-/
namespace BitcodeWrapper.StageCommand

/-- Flags that must not reach the bitcode. Each stands alone and may be given more than once. -/
def forbiddenFlags : List String :=
  ["-g", "-gmodules", "-fembed-bitcode", "-fembed-bitcode-marker"]

def outputFlag : String := "-o"

def languageFlag : String := "-x"

/-- A word character or a dash. -/
def identifierChar : CharClass := ⟨false, [.word false, .range '-' '-']⟩

def identifier : Pattern := .plus (.one identifierChar)

/-- Sanitizers, one or more joined by single commas. -/
def sanitizers : Pattern :=
  .seq (.seq (.literal "-fsanitize=".toList) identifier) (.star (.seq (.char ',') identifier))

/-- The stages pass flags that are irrelevant to them, which must not fail the build. -/
def unusedArgumentFlag : String := "-Wno-unused-command-line-argument"

def emitBitcode (args : Arguments) (bitcode : String) : Arguments :=
  let kept := forbiddenFlags.foldl (fun args flag => args.withoutEvery flag false) args
  let kept := (kept.without outputFlag true).withoutMatching sanitizers
  ((kept.adding "-emit-llvm" "").adding outputFlag bitcode).adding unusedArgumentFlag ""

def schedulePasses (options : Arguments) (input output : String) : Arguments :=
  options ++ [input, outputFlag, output]

def buildBitcode (args : Arguments) (bitcode : String) : Arguments :=
  let kept := (args.without languageFlag true).adding languageFlag "ir"
  let kept := (kept.without SourceFile.compileFlag true).adding SourceFile.compileFlag bitcode
  kept.adding unusedArgumentFlag ""

end BitcodeWrapper.StageCommand
