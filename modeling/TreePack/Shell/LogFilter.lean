import TreePack.Shell.LogRecord
import TreePack.Shell.Pattern.Basic
import TreePack.Text.Utf8

/-!
# Log filters

Which records are logged is chosen by a list of directives: a level for everything, for the records
whose origin begins with a given target, or for those that carry a given value.  Of the directives
that apply to a record the one that is aimed most closely decides, and of equal ones the last.

A directive can also be confined to a span of the work, or to a value that a pattern matches.  Such
a directive applies to what is inside of spans, and the program has none.
-/

namespace TreePack

/-- A value that is asked for: its name and, if one is given, the pattern for its text. -/
structure FieldTest where
  name : String
  pattern : Option String
  deriving DecidableEq

structure Directive where
  /-- The beginning of the origins that the directive is for; none if it is for all. -/
  target : Option String
  /-- The name of the spans that the directive is confined to. -/
  span : Option String
  field : Option FieldTest
  /-- The most detailed level that passes; none if nothing does. -/
  level : Option Level
  deriving DecidableEq

structure LogFilter where
  directives : List Directive

namespace FieldTest

def parse? (text : String) : Option FieldTest :=
  let chars := text.toList
  let name := String.ofList (chars.takeWhile (· ≠ '='))
  match chars.dropWhile (· ≠ '=') with
  | [] => if chars = [] then none else some ⟨name, none⟩
  | _ :: rest =>
      let pattern := rest.takeWhile (· ≠ '=')
      if Pattern.accepts pattern then some ⟨name, some (String.ofList pattern)⟩ else none

end FieldTest

namespace Directive

/-- The number that decimal digits stand for; a plus sign may precede them. -/
def number? (text : List Char) : Option Nat :=
  let digits := if text.head? = some '+' then text.tail else text
  if !digits.isEmpty && digits.all Char.isDigit then
    some (digits.foldl (fun n c => 10 * n + (c.toNat - '0'.toNat)) 0)
  else none

/-- The level of a rank; rank zero lets nothing pass. -/
def levelOfRank? : Nat → Option (Option Level)
  | 0 => some none
  | 1 => some (some .error)
  | 2 => some (some .warn)
  | 3 => some (some .info)
  | 4 => some (some .debug)
  | 5 => some (some .trace)
  | _ => none

def level? (text : String) : Option (Option Level) :=
  match number? text.toList with
  | some rank => levelOfRank? rank
  | none =>
      match text.toLower with
      | "off" => some none
      | "error" => some (some .error)
      | "warn" => some (some .warn)
      | "info" => some (some .info)
      | "debug" => some (some .debug)
      | "trace" => some (some .trace)
      | _ => none

/-- The level after an equals sign.  Where none is given, everything passes. -/
def givenLevel? (text : String) : Option (Option Level) :=
  if text = "" then some (some .trace) else level? text

def canBegin (c : Char) : Bool :=
  CharClass.isAlphanumeric c || c = '-' || c = ':' || c = '_'

/-- A text and what is left of it to be read.  Blanks at both ends are not read, but where a part
of the text begins and ends is counted from the first blank. -/
structure Window where
  text : String
  position : Nat
  rest : List Char

namespace Window

def ofText (text : String) : Window where
  text := text
  position := 0
  rest := ((text.toList.dropWhile CharClass.isBlank).reverse.dropWhile CharClass.isBlank).reverse

def part? (window : Window) (first last : Nat) : Option String :=
  (Utf8.decode (((Bytes.ofText window.text).drop first).take (last - first))).toOption

def partFrom? (window : Window) (first : Nat) : Option String :=
  window.part? first window.text.utf8ByteSize

/-- Reads up to a character: the part before it and what follows it. -/
def upTo (window : Window) (stops : Char → Bool) : Window × Option Char :=
  let passed := window.rest.takeWhile (!stops ·)
  let rest := window.rest.dropWhile (!stops ·)
  (⟨window.text, window.position + (String.ofList passed).utf8ByteSize, rest⟩, rest.head?)

def step (window : Window) : Window :=
  ⟨window.text, window.position + 1, window.rest.tail⟩

end Window

def parseLevel? (target span : Option String) (field : Option FieldTest) (window : Window) :
    Option Directive :=
  match window.rest with
  | [] => some ⟨target, span, field, some .trace⟩
  | '=' :: _ => do
      let level ← givenLevel? (← window.partFrom? window.step.position)
      some ⟨target, span, field, level⟩
  | _ => none

/-- Reads what follows an opening bracket: `span]` or `span{field}]`, where the span may be left out
before a field. -/
def parseSpan? (target : Option String) (window : Window) : Option Directive := do
  let (inner, stop) := window.upTo fun c => c = ']' || c = '\x7b'
  let span ← window.part? window.position inner.position
  match stop with
  | some ']' => parseLevel? target (some span) none inner.step
  | some _ =>
      let (field, stop) := inner.step.upTo (· = '\x7d')
      if stop.isNone || field.step.rest.head? ≠ some ']' then none
      else
        let test ← FieldTest.parse? (← window.part? inner.step.position field.position)
        parseLevel? target (if span = "" then none else some span) (some test) field.step.step
  | none => none

def parse? (text : String) : Option Directive :=
  let window := Window.ofText text
  match window.rest with
  | '[' :: _ => parseSpan? none window.step
  | first :: _ =>
      if !canBegin first then none
      else
        let (target, stop) := window.upTo fun c => c = '=' || c = '['
        match stop with
        | none =>
            match level? text with
            | some level => some ⟨none, none, none, level⟩
            | none => some ⟨some text, none, none, some .trace⟩
        | some stop => do
            let name ← window.part? 0 target.position
            if stop = '=' then parseLevel? (some name) none none target
            else parseSpan? (some name) target.step
  | [] => none

def appliesTo (directive : Directive) (record : LogRecord) : Bool :=
  directive.span.isNone
    && (match directive.field with
      | none => true
      | some test => test.pattern.isNone && record.fields.contains test.name)
    && (match directive.target with
      | none => true
      | some target => target.toList.isPrefixOf record.origin.toList)

def closeness (directive : Directive) : Nat :=
  (match directive.target with
    | none => 0
    | some target => 2 * (target.length + 1))
  + (if directive.field.isSome then 1 else 0)

/-- Whether a directive decides before an earlier one.  Where both ask for a value, the order of
the names settles it. -/
def overrides (directive earlier : Directive) : Bool :=
  let name := fun (directive : Directive) => (directive.field.map FieldTest.name).getD ""
  earlier.closeness < directive.closeness
    || earlier.closeness = directive.closeness && !(name directive < name earlier)

def passes (directive : Directive) (record : LogRecord) : Bool :=
  match directive.level with
  | none => false
  | some level => record.level.rank ≤ level.rank

end Directive

namespace LogFilter

def standard : LogFilter := ⟨[⟨none, none, none, some .warn⟩]⟩

def parts (text : List Char) : List (List Char) :=
  (text.foldr (fun c parts =>
    if c = ',' then [] :: parts else parts.modifyHead (c :: ·)) [[]]).filter (· ≠ [])

/-- Reads a list of directives.  Without any, errors alone pass. -/
def parse? (text : String) : Option LogFilter :=
  match (parts text.toList).mapM fun part => Directive.parse? (String.ofList part) with
  | none => none
  | some [] => some ⟨[⟨none, none, none, some .error⟩]⟩
  | some directives => some ⟨directives⟩

def ofSetting (setting : Option Bytes) : LogFilter :=
  (setting.bind fun bytes => (Utf8.decode bytes).toOption.bind parse?).getD standard

def deciding? (filter : LogFilter) (record : LogRecord) : Option Directive :=
  (filter.directives.filter (·.appliesTo record)).foldl (fun best directive =>
    match best with
    | none => some directive
    | some held => if directive.overrides held then some directive else some held) none

def allows (filter : LogFilter) (record : LogRecord) : Bool :=
  match filter.deciding? record with
  | none => false
  | some directive => directive.passes record

end LogFilter

end TreePack
