import ApiCatalog.Json.Basic

/-!
# Contents of files

What a file holds, and why it may not be read or written. A document that the program writes is kept
as it is; its layout as text is not part of this.
-/
namespace ApiCatalog

inductive Content where
  | document (value : Json)
  | text (value : String)
  deriving Inhabited

/-- Why a file cannot be read or written. -/
inductive FileFault where
  | missing
  | directory
  | notDirectory
  | tooLarge
  | nameTooLong
  | notText
  | other (reason : String)
  deriving DecidableEq, Repr, Inhabited

namespace FileFault

def message : FileFault → String
  | missing => "No such file or directory (os error 2)"
  | notDirectory => "Not a directory (os error 20)"
  | directory => "Is a directory (os error 21)"
  | tooLarge => "File too large (os error 27)"
  | nameTooLong => "File name too long (os error 36)"
  | notText => "stream did not contain valid UTF-8"
  | other reason => reason

end FileFault

end ApiCatalog
