import BitcodeWrapper.Host.Basic

/-!
Programs searched for by name in a list of directories.
-/
namespace BitcodeWrapper.Host

def searchVariable : String := "PATH"

def standardSearch : String := "/bin:/usr/bin"

/-- The directories of a search list; an empty one is the current directory. -/
def searchDirectories (list : String) : List String :=
  (Path.cutAt ':' list.toList).map String.ofList

/-- A name with a directory part is looked up as it is. An empty search list finds nothing. -/
def findProgram? (h : Host) (name : String) : Option String :=
  if Path.directory name != "" then
    if h.files.isProgram h.here name then some name else none
  else
    let list := (h.environment.get? searchVariable).getD standardSearch
    if list = "" then none
    else ((searchDirectories list).map fun d => Path.join d name).find? (h.files.isProgram h.here)

end BitcodeWrapper.Host
