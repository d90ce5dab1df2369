import DmaReadout.Options

/-! # Reading the command line

* `Flag`, `Setting`: the options without and with a value.
* `Argument`: one argument by its form.
* `Options.parse`: the options of a list of arguments. The first fault from left to right counts; a
  value in an argument of its own is read when the next option is met. -/

namespace DmaReadout

/-- The options without a value. -/
inductive Flag where
  | reset
  | asciiFile
  | binaryFile
  | noErrorCheck
  | noResync
  | pageReset
  | barHammer
  | randomPause
  | removePagesFile
  | verbose
  | json
  | help
  | version
  deriving Repr, DecidableEq

namespace Flag

/-- The flag with a name. -/
def named? : String → Option Flag
  | "reset" => some reset
  | "to-file-ascii" => some asciiFile
  | "to-file-bin" => some binaryFile
  | "no-errorcheck" => some noErrorCheck
  | "no-resync" => some noResync
  | "page-reset" => some pageReset
  | "bar-hammer" => some barHammer
  | "random-pause" => some randomPause
  | "rm-pages-file" => some removePagesFile
  | "verbose" => some verbose
  | "json" => some json
  | "help" => some help
  | "version" => some version
  | _ => none

/-- The flag with a letter. -/
def lettered? : Char → Option Flag
  | 'v' => some verbose
  | 'h' => some help
  | 'V' => some version
  | _ => none

/-- The options with a flag set; the requests for a text end the reading. -/
def apply (o : Options) : Flag → Except UsageFault Options
  | reset => .ok { o with reset := true }
  | asciiFile => .ok { o with asciiFile := true }
  | binaryFile => .ok { o with binaryFile := true }
  | noErrorCheck => .ok { o with noErrorCheck := true }
  | noResync => .ok { o with noResync := true }
  | pageReset => .ok { o with pageReset := true }
  | barHammer => .ok { o with barHammer := true }
  | randomPause => .ok { o with randomPause := true }
  | removePagesFile => .ok { o with removePagesFile := true }
  | verbose => .ok { o with verbose := true }
  | json => .ok { o with json := true }
  | help => .error .help
  | version => .error .version

end Flag

/-- The options with a value. -/
inductive Setting where
  | card
  | channel
  | pages
  | bufferSize
  | superpageSize
  | pageSize
  | pattern
  | readoutMode
  | bufferPath
  | outputFolder
  deriving Repr, DecidableEq

namespace Setting

/-- The option with a name. -/
def named? : String → Option Setting
  | "id" => some card
  | "channel" => some channel
  | "pages" => some pages
  | "buffer-size" => some bufferSize
  | "superpage-size" => some superpageSize
  | "dma-page-size" => some pageSize
  | "pattern" => some pattern
  | "readout-mode" => some readoutMode
  | "buffer-path" => some bufferPath
  | "output-dir" => some outputFolder
  | _ => none

/-- A value, or the fault of a text that is none. -/
def require {α : Type} (fault : UsageFault) (value? : Option α) : Except UsageFault α :=
  value?.elim (.error fault) .ok

/-- A path, which must not be empty. -/
def path? (text : String) : Option String :=
  if text = "" then none else some text

/-- The options with a value set. -/
def apply (o : Options) (text : String) : Setting → Except UsageFault Options
  | card => .ok { o with card := text }
  | channel => do
    let n ← require .badNumber (Text.integerWithin? 0 0xffffffff text.toList)
    return { o with channel := n.toNat.toUInt32 }
  | pages => do
    let n ← require .badNumber (Text.integerWithin? (-0x8000000000000000) 0x7fffffffffffffff text.toList)
    return { o with pages := n }
  | bufferSize => .ok { o with bufferSize := text }
  | superpageSize => do
    let n ← require .badNumber (Text.naturalBelow? sizeLimit text.toList)
    return { o with superpageMebibytes := n }
  | pageSize => do
    let n ← require .badNumber (Text.naturalBelow? sizeLimit text.toList)
    return { o with pageKibibytes := n }
  | pattern => do
    let p ← require .badChoice (Pattern.named? text.toList)
    return { o with pattern := p }
  | readoutMode => do
    let mode ← require .badChoice (ReadoutMode.named? text.toList)
    return { o with readoutMode? := some mode }
  | bufferPath => do
    let path ← require .badChoice (path? text)
    return { o with bufferPath? := some path }
  | outputFolder => do
    let path ← require .badChoice (path? text)
    return { o with outputFolder := path }

end Setting

/-- An argument by its form. -/
inductive Argument where
  /-- The end of the options, `--`. -/
  | endOfOptions
  /-- An option by its name, with the value behind a `=`. -/
  | long (name : String) (value? : Option String)
  /-- Options by their letters. -/
  | short (letters : List Char)
  /-- Anything else. -/
  | plain (text : String)
  deriving Repr, DecidableEq

/-- A name and the value behind the first `=`. -/
def splitValue (cs : List Char) : String × Option String :=
  match cs.dropWhile (· != '=') with
  | [] => (String.ofList cs, none)
  | _ :: value => (String.ofList (cs.takeWhile (· != '=')), some (String.ofList value))

/-- The form of an argument. -/
def Argument.ofText (text : String) : Argument :=
  match text.toList with
  | ['-', '-'] => .endOfOptions
  | '-' :: '-' :: cs =>
    match splitValue cs with
    | (name, value?) => .long name value?
  | ['-'] => .plain text
  | '-' :: letters => .short letters
  | _ => .plain text

/-- Whether a letter stands before the exponent of a number. -/
def isExponentMark (c : Char) : Bool :=
  c == 'e' || c == 'E'

/-- Whether letters behind a minus sign are those of a negative number: digits, with a point and an
exponent mark at most once each, not at the ends where they would mean nothing. -/
def isNegativeNumber (cs : List Char) : Bool :=
  let marks := cs.filter isExponentMark
  let points := cs.filter (· == '.')
  cs ≠ [] && cs.all (fun c => Text.isDigit c || isExponentMark c || c == '.') &&
    marks.length ≤ 1 && points.length ≤ 1 && !cs.head?.any isExponentMark &&
    !cs.getLast?.any isExponentMark && cs.head? != some '.' &&
    !((cs.dropWhile (!isExponentMark ·)).contains '.')

/-- The reading of arguments between two of them. -/
structure ArgumentReader where
  /-- The options so far. -/
  options : Options := {}
  /-- The flags met so far. -/
  flags : List Flag := []
  /-- The options with a value met so far. -/
  settings : List Setting := []
  /-- The option whose value may still come, with the value if it has come. -/
  pending? : Option (Setting × Option String) := none
  deriving Repr, DecidableEq

namespace ArgumentReader

/-- Reads the value of an option. No option may be met twice. -/
def set (r : ArgumentReader) (s : Setting) (text : String) : Except UsageFault ArgumentReader :=
  if s ∈ r.settings then .error .repeated
  else do
    let options ← s.apply r.options text
    return { r with options, settings := s :: r.settings }

/-- Reads the value that came in an argument of its own; it must have come. -/
def settle (r : ArgumentReader) : Except UsageFault ArgumentReader :=
  match r.pending? with
  | none => .ok r
  | some (_, none) => .error .badChoice
  | some (s, some text) => { r with pending? := none }.set s text

/-- Reads a flag. -/
def raise (r : ArgumentReader) (f : Flag) : Except UsageFault ArgumentReader := do
  let r ← r.settle
  if f ∈ r.flags then throw .repeated
  let options ← f.apply r.options
  return { r with options, flags := f :: r.flags }

/-- Reads an option by its name. -/
def long (r : ArgumentReader) (name : String) (value? : Option String) :
    Except UsageFault ArgumentReader :=
  match Flag.named? name, Setting.named? name with
  | some f, _ => if value?.isSome then .error .unwantedValue else r.raise f
  | none, some s => do
    let r ← r.settle
    match value? with
    | some text => r.set s text
    | none => return { r with pending? := some (s, none) }
  | none, none => .error .unknownArgument

/-- Reads a text that may be the value of the option before. -/
def plain (r : ArgumentReader) (text : String) : Except UsageFault ArgumentReader :=
  match r.pending? with
  | some (s, none) => .ok { r with pending? := some (s, some text) }
  | _ => .error .unknownArgument

/-- Reads flags by their letters. -/
def short (r : ArgumentReader) : List Char → Except UsageFault ArgumentReader
  | [] => .ok r
  | c :: cs =>
    match Flag.lettered? c with
    | none => .error .unknownArgument
    | some f => do (← r.raise f).short cs

/-- Reads letters; they are a value where a number of pages may come and they are one. -/
def letters (r : ArgumentReader) (text : String) (cs : List Char) :
    Except UsageFault ArgumentReader :=
  if r.pending? = some (.pages, none) && isNegativeNumber cs then r.plain text else r.short cs

/-- Reads arguments. Behind the end of the options there must be none. -/
def readAll (r : ArgumentReader) : List String → Except UsageFault ArgumentReader
  | [] => r.settle
  | text :: rest =>
    match Argument.ofText text with
    | .endOfOptions => if rest = [] then r.settle else .error .unknownArgument
    | .long name value? => do (← r.long name value?).readAll rest
    | .short cs => do (← r.letters text cs).readAll rest
    | .plain text => do (← r.plain text).readAll rest

end ArgumentReader

/-- The options of a list of arguments; the card and the channel must be among them. -/
def Options.parse (args : List String) : Except UsageFault Options := do
  let r ← ({} : ArgumentReader).readAll args
  if .card ∈ r.settings ∧ .channel ∈ r.settings then return r.options else throw .missing

end DmaReadout
