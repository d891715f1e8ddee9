/-
**What the surroundings can refuse.**

Reasons for which a file cannot be read or a program cannot be started, with their wording.

* `SystemError.message_of_code`: a reason with a number is worded as its description and that
  number.
-/

namespace CellSyntax

/-- A reason for which a file cannot be read or a program cannot be started. -/
inductive SystemError where
  | notFound
  | permissionDenied
  | notDirectory
  | isDirectory
  | nameTooLong
  /-- A descriptor is not open, or not for what is to be done with it. -/
  | badDescriptor
  | noSpace
  | notPermitted
  | invalidArgument
  /-- The contents are not UTF-8. -/
  | notText
  /-- A name or an argument has a zero byte in it. -/
  | zeroByte
deriving DecidableEq, Repr

namespace SystemError

/-- The number of a reason; the last two have none. -/
def code? : SystemError → Option Nat
  | notFound => some 2
  | permissionDenied => some 13
  | notDirectory => some 20
  | isDirectory => some 21
  | nameTooLong => some 36
  | badDescriptor => some 9
  | noSpace => some 28
  | notPermitted => some 1
  | invalidArgument => some 22
  | notText => none
  | zeroByte => none

/-- A reason in words. -/
def description : SystemError → String
  | notFound => "No such file or directory"
  | permissionDenied => "Permission denied"
  | notDirectory => "Not a directory"
  | isDirectory => "Is a directory"
  | nameTooLong => "File name too long"
  | badDescriptor => "Bad file descriptor"
  | noSpace => "No space left on device"
  | notPermitted => "Operation not permitted"
  | invalidArgument => "Invalid argument"
  | notText => "stream did not contain valid UTF-8"
  | zeroByte => "nul byte found in provided data"

/-- The wording of a reason. -/
def message (error : SystemError) : String :=
  match error.code? with
  | some code => s!"{error.description} (os error {code})"
  | none => error.description

theorem message_of_code {error : SystemError} {code : Nat} (numbered : error.code? = some code) :
    error.message = s!"{error.description} (os error {code})" := by
  rw [message, numbered]

end SystemError

end CellSyntax
