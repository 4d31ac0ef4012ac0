/-!
# Failed file operations

The ways in which the operating system refuses a file operation, with its words
for them.
-/

namespace RoleWiring

/-- Why a file operation failed. -/
inductive OsError where
  /-- an entry on the way, or the last one, is not there -/
  | notFound
  /-- the entry that was to be made is there already -/
  | alreadyExists
  /-- something on the way is not a directory -/
  | notDirectory
  /-- a directory where a file was wanted -/
  | isDirectory
  /-- a file name or path beyond the limit -/
  | nameTooLong
  /-- too many symbolic links on the way -/
  | tooManyLinks
  /-- a path with a null byte -/
  | nulInPath
  /-- a text was wanted and the content is none -/
  | notText
  /-- any other failure, in words -/
  | other (text : String)
deriving DecidableEq, Repr

/-- The words for a failure. -/
def OsError.message : OsError → String
  | notFound => "No such file or directory (os error 2)"
  | alreadyExists => "File exists (os error 17)"
  | notDirectory => "Not a directory (os error 20)"
  | isDirectory => "Is a directory (os error 21)"
  | nameTooLong => "File name too long (os error 36)"
  | tooManyLinks => "Too many levels of symbolic links (os error 40)"
  | nulInPath => "file name contained an unexpected NUL byte"
  | notText => "stream did not contain valid UTF-8"
  | other text => text

end RoleWiring
