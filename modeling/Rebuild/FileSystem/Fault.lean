/-!
# Why a file system refuses

Every operation on a path can be refused. Some refusals are news and no trouble: a file that is not
there simply has no modification time. The others end the work, and their texts are shown to the
user as the system words them.
-/

namespace Rebuild.FileSystem

/-- A refusal. -/
inductive Fault where
  | notFound
  | notDirectory
  | isDirectory
  | denied
  | nameTooLong
  | tooManyLinks
  | nulInName
  | notText
  | other (text : String)
deriving DecidableEq

/-- The words of a refusal. -/
def Fault.message : Fault → String
  | notFound => "No such file or directory (os error 2)"
  | notDirectory => "Not a directory (os error 20)"
  | isDirectory => "Is a directory (os error 21)"
  | denied => "Permission denied (os error 13)"
  | nameTooLong => "File name too long (os error 36)"
  | tooManyLinks => "Too many levels of symbolic links (os error 40)"
  | nulInName => "file name contained an unexpected NUL byte"
  | notText => "stream did not contain valid UTF-8"
  | other text => text

end Rebuild.FileSystem
