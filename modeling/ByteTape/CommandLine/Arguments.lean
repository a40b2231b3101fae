/-
Reading arguments. Every argument before a separator `--` is first read by itself: as a plain word,
or as a flag with or without a text attached to it. Long flags may be cut short as far as they stay
unique. Then the arguments are taken in from left to right: a flag takes the text attached to it or
the plain word that follows, the first plain word that no flag takes is the file, and what is left
over is refused in the end. What is made of a text attached to a flag has changed over time, and is
said for both of the ways.
-/
import ByteTape.CommandLine.Options
import ByteTape.Text.Character

namespace ByteTape.CommandLine

/-- Arguments are read in the way of a library, of which there are two editions: the late one is that
of its release 3.11.10, and the early one is that of releases before it. They differ in what they make
of a text attached to a flag.

In the early edition a separator there is no value at all, so that the flag is left without one. What is
attached to a short flag that needs no value is more flags, by a `=` or without one, and is refused if
they do not all exist.

In the late edition every text is a value. What a `=` attaches to a flag that needs none is refused,
such a `=` may also stand behind one of several short flags, and the flags before one that does not
exist count, while the rest is left over. -/
inductive Edition where
  | early
  | late
  deriving DecidableEq

/-- What is wrong with the arguments. -/
inductive UsageError where
  | ambiguous (word : Word) (flags : List Word)
  | valueMissing (o : Opt)
  | valueRefused (o : Opt) (value : Word)
  | invalidChoice (o : Opt) (value : Word) (choices : List Word)
  | codeAfterFile
  | fileAfterCode
  | nothingToRun
  | unrecognized (words : List Word)
  deriving DecidableEq

namespace UsageError

private def quoted (w : Word) : String := Text.quote (String.ofList w)

/-- What is said about wrong arguments. -/
def message : UsageError → String
  | .ambiguous w flags =>
    let candidates := ", ".intercalate (flags.map String.ofList)
    s!"ambiguous option: {String.ofList w} could match {candidates}"
  | .valueMissing o => s!"argument {o.name}: expected one argument"
  | .valueRefused o v => s!"argument {o.name}: ignored explicit argument {quoted v}"
  | .invalidChoice o v choices =>
    let choices := ", ".intercalate (choices.map quoted)
    s!"argument {o.name}: invalid choice: {quoted v} (choose from {choices})"
  | .codeAfterFile => s!"argument {Opt.code.name}: not allowed with argument file"
  | .fileAfterCode => s!"argument file: not allowed with argument {Opt.code.name}"
  | .nothingToRun => s!"one of the arguments file {Opt.code.name} is required"
  | .unrecognized ws =>
    let words := " ".intercalate (ws.map String.ofList)
    s!"unrecognized arguments: {words}"

end UsageError

/-! ## Reading one argument -/

/-- What separates options from plain words. -/
def separator : Word := ['-', '-']

/-- What an argument reads as. -/
inductive Reading where
  | plain
  | separator
  /-- a flag, and the text attached to it: after `=`, or directly behind a short flag; what is attached
  may be more flags unless it is closed -/
  | flag (o : Opt) (closed : Bool) (attached : Option Word)
  /-- a flag of no option -/
  | unknown
  deriving DecidableEq

/-- A flag that begins with two dashes. -/
def isLong : Word → Bool
  | '-' :: '-' :: _ => true
  | _ => false

/-- A word up to its first `=`, and what comes after that. -/
def splitAssign : Word → Word × Option Word
  | [] => ([], none)
  | c :: rest =>
    if c = '=' then ([], some rest)
    else
      let (front, value) := splitAssign rest
      (c :: front, value)

/-- One digit or more, and perhaps a line feed behind them. -/
def isDigits (w : Word) : Bool :=
  let rest := w.dropWhile Text.isDecimalDigit
  w.head?.any Text.isDecimalDigit && (rest = [] || rest = ['\n'])

/-- A minus sign before a whole number or a fraction in decimal digits. -/
def isNegativeNumber : Word → Bool
  | '-' :: w =>
    isDigits w || match w.dropWhile Text.isDecimalDigit with
      | '.' :: fraction => isDigits fraction
      | _ => false
  | _ => false

/-- The flags that a word may be short for, with what is attached to them. -/
def candidates (w : Word) : List (Word × Reading) :=
  if isLong w then
    let (front, value) := splitAssign w
    (Opt.table.filter fun f => front.isPrefixOf f.1).map fun (f, o) => (f, .flag o true value)
  else
    (Opt.table.filter fun f => f.1 == w.take 2).map fun (f, o) =>
      (f, .flag o false (some (w.drop 2)))

/-- Reads an argument by itself. -/
def readWord (d : Edition) (w : Word) : Except UsageError Reading :=
  match w with
  | '-' :: _ :: _ =>
    match Opt.ofFlag? w with
    | some o => .ok (.flag o (isLong w) none)
    | none =>
      let (front, value) := splitAssign w
      match Opt.ofFlag? front, value with
      | some o, some v => .ok (.flag o (isLong front || d = .late) (some v))
      | _, _ => match candidates w with
        | [] => .ok (if isNegativeNumber w || w.contains ' ' then .plain else .unknown)
        | [(_, reading)] => .ok reading
        | several => .error (.ambiguous w (several.map (·.1)))
  | _ => .ok .plain

/-- Reads every argument; from the separator on they are plain words. -/
def readWords (d : Edition) : List Word → Except UsageError (List (Word × Reading))
  | [] => .ok []
  | w :: rest =>
    if w = separator then .ok ((w, .separator) :: rest.map fun w => (w, .plain))
    else match readWord d w with
      | .error e => .error e
      | .ok reading => (readWords d rest).map fun more => (w, reading) :: more

/-! ## Taking the arguments in -/

/-- Why no program is run: the help or the version is asked for, or the arguments are wrong. -/
inductive Stop where
  | help
  | version
  | usage (e : UsageError)
  deriving DecidableEq

/-- What an option is given: a text, or no value at all. -/
abbrev Value := Option Word

/-- The value that an attached text is; the separator is none in the early edition. -/
def valueOf : Edition → Word → Value
  | .early, w => if w = separator then none else some w
  | .late, w => some w

/-- Short flags written together, such as `-vc`: the options met, each with its value, the last one
by itself if it still wants its value from the next argument, and what is left over where a flag does
not exist. -/
structure Cluster where
  options : List (Opt × Value) := []
  wanted : Option Opt := none
  leftOver : Option Word := none
  deriving DecidableEq

/-- A flag with no text attached to it. -/
def Cluster.ofFlag (o : Opt) : Cluster :=
  if o.takesValue then { wanted := some o } else { options := [(o, none)] }

/-- A flag with a text attached to it that can be nothing but its value. -/
def assign (d : Edition) (o : Opt) (text : Word) : Except UsageError Cluster :=
  if o.takesValue then .ok { options := [(o, valueOf d text)] } else .error (.valueRefused o text)

/-- The text that a `=` attaches to one of several short flags. -/
def assigned? : Edition → Word → Option Word
  | .late, '=' :: text => some text
  | _, _ => none

/-- Takes a cluster of short flags apart: option `o` with the text behind it, if there is any.
Behind an option that needs no value the text has to begin with another flag, or is refused or left
over. -/
def cluster (d : Edition) (o : Opt) : Word → Except UsageError Cluster
  | [] => .ok (.ofFlag o)
  | c :: rest =>
    if o.takesValue then .ok { options := [(o, valueOf d (c :: rest))] }
    else match Opt.ofFlag? ['-', c] with
      | none =>
        if d = .early ∨ c = '-' then .error (.valueRefused o (c :: rest))
        else .ok { options := [(o, none)], leftOver := some ('-' :: c :: rest) }
      | some o' =>
        let behind := match assigned? d rest with
          | some text => assign d o' text
          | none => cluster d o' rest
        behind.map fun k => { k with options := (o, none) :: k.options }

/-- Takes a flag apart. An attached text may be empty, and is a text even so. -/
def spread (d : Edition) (o : Opt) (closed : Bool) : Option Word → Except UsageError Cluster
  | none => .ok (.ofFlag o)
  | some text => if closed || text = [] then assign d o text else cluster d o text

/-- What has been taken in so far. -/
structure Taken where
  code : Option Value := none
  file : Option Word := none
  settings : Settings.Request := {}
  verbose : Bool := false
  /-- an option that wants the next argument for its value, and the options met before it in the
  same cluster, which wait for it -/
  wanted : Option (List (Opt × Value) × Opt) := none
  /-- the last argument was the file -/
  afterFile : Bool := false
  /-- words that nothing takes, in reverse -/
  leftOver : List Word := []
  deriving DecidableEq

namespace Taken

/-- The value of an option that offers a choice; no value at all is not looked for there. -/
def choose (o : Opt) : Value → Except Stop Scalar
  | none => .ok .empty
  | some v =>
    if o.choices.contains v then .ok (.text (String.ofList v))
    else .error (.usage (.invalidChoice o v o.choices))

/-- Takes an option in, with its value if it needs one. -/
def option (t : Taken) : Opt → Value → Except Stop Taken
  | .help, _ => .error .help
  | .version, _ => .error .version
  | .strict, _ => .ok { t with settings := { t.settings with strict := true } }
  | .verbose, _ => .ok { t with verbose := true }
  | .code, v =>
    if t.file.isSome then .error (.usage .codeAfterFile) else .ok { t with code := some v }
  | .wrap, v =>
    (choose .wrap v).map fun w => { t with settings := { t.settings with wrap := w } }
  | .eof, v =>
    (choose .eof v).map fun p => { t with settings := { t.settings with onEof := p } }

/-- Takes several options in. -/
def options (t : Taken) : List (Opt × Value) → Except Stop Taken
  | [] => .ok t
  | (o, v) :: rest => match t.option o v with
    | .error s => .error s
    | .ok t => t.options rest

/-- Leaves a word over. -/
def leave (t : Taken) (w : Word) : Taken := { t with leftOver := w :: t.leftOver }

/-- Takes a plain word that no flag wants: the file, unless there is one already. -/
def plain (t : Taken) (w : Word) : Except Stop Taken :=
  if t.file.isSome then .ok (t.leave w)
  else if t.code.isSome then .error (.usage .fileAfterCode)
  else .ok { t with file := some w, afterFile := true }

/-- Takes a cluster of flags in; if the last one wants a value, they wait for it together. -/
def flags (t : Taken) (k : Cluster) : Except Stop Taken :=
  let t := { t with leftOver := k.leftOver.toList ++ t.leftOver }
  match k.wanted with
  | some o => .ok { t with wanted := some (k.options, o) }
  | none => t.options k.options

/-- Takes in one argument. The separator goes with the file: it is left over when the file came
earlier and other arguments stand between. -/
def next (d : Edition) (t : Taken) (w : Word) (r : Reading) : Except Stop Taken :=
  let idle := { t with wanted := none, afterFile := false }
  match t.wanted, r with
  | some (waiting, o), .plain => idle.options (waiting ++ [(o, some w)])
  | some (_, o), _ => .error (.usage (.valueMissing o))
  | none, .plain => idle.plain w
  | none, .separator => .ok (if t.file.isSome && !t.afterFile then idle.leave w else idle)
  | none, .unknown => .ok (idle.leave w)
  | none, .flag o closed attached => match spread d o closed attached with
    | .error e => .error (.usage e)
    | .ok k => idle.flags k

/-- Takes in the arguments from left to right. -/
def nextAll (d : Edition) (t : Taken) : List (Word × Reading) → Except Stop Taken
  | [] => .ok t
  | (w, r) :: rest => match t.next d w r with
    | .error s => .error s
    | .ok t => t.nextAll d rest

/-- What all the arguments together ask for. -/
def finish (t : Taken) : Except Stop Options :=
  match t.wanted, t.code, t.file, t.leftOver with
  | some (_, o), _, _, _ => .error (.usage (.valueMissing o))
  | none, none, none, _ => .error (.usage .nothingToRun)
  | none, _, _, w :: more => .error (.usage (.unrecognized (w :: more).reverse))
  | none, some c, _, [] => .ok ⟨.code (c.map String.ofList), t.settings, t.verbose⟩
  | none, none, some f, [] => .ok ⟨.file (String.ofList f), t.settings, t.verbose⟩

end Taken

/-- What a line of arguments asks for. -/
def parse (d : Edition) (arguments : List String) : Except Stop Options :=
  match readWords d (arguments.map String.toList) with
  | .error e => .error (.usage e)
  | .ok ws => match Taken.nextAll d {} ws with
    | .error s => .error s
    | .ok t => t.finish

end ByteTape.CommandLine
