/-!
Which release of the wrapper this is.
-/
namespace BitcodeWrapper.Release

def version : String := "0.3.0"

def date : String := "October 19 2026"

end BitcodeWrapper.Release
