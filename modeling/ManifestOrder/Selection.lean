import ManifestOrder.Glob
import ManifestOrder.Path
import ManifestOrder.Text.Reader
import ManifestOrder.Toml.Value

/-!
# Selecting by settings

Rules are selected by the beginnings of their ids and manifests by the patterns that their names
match. The settings for both may hold anything. They are read from the front, and a part that is no
text is an error only if it is reached, that is, if no part before it decides.
-/

namespace ManifestOrder

open Toml (Value)

/-- A setting, or a part of it, is of a kind that cannot be used. -/
structure WrongType where
deriving DecidableEq, Repr

/-- Some part holds, the parts being read from the front until one does. -/
def anyPart (holds : String → Bool) : List Value → Except WrongType Bool
  | [] => .ok false
  | .string text :: rest => if holds text then .ok true else anyPart holds rest
  | _ :: _ => .error {}

def parts (setting : Value) : Except WrongType (List Value) :=
  match setting.parts? with
  | some parts => .ok parts
  | none => .error {}

/-- The entries that pass a test, unless the test fails on one of them. -/
def filterOrFail {α : Type} (test : α → Except WrongType Bool) : List α → Except WrongType (List α)
  | [] => .ok []
  | entry :: rest =>
    match test entry with
    | .error e => .error e
    | .ok passes =>
      match filterOrFail test rest with
      | .error e => .error e
      | .ok others => .ok (if passes then entry :: others else others)

/-! ## Rules -/

/-- A rule is selected when its id starts with a part of the setting. A blank setting selects every
rule. -/
def isSelected (select : Value) (id : String) : Except WrongType Bool :=
  if select.isBlank then .ok true
  else
    match parts select with
    | .error e => .error e
    | .ok parts => anyPart (fun start => start.toList.isPrefixOf id.toList) parts

/-- A rule is ignored when its id is an element of the setting, a key of it, or, if the setting is
a text, occurs in it. -/
def isIgnored (ignore : Value) (id : String) : Except WrongType Bool :=
  if ignore.isBlank then .ok false
  else
    match ignore with
    | .string text => .ok (Text.occursIn id.toList text.toList)
    | .array elements => .ok (elements.any fun element => element.string? == some id)
    | .table entries => .ok (entries.any fun entry => entry.1 == id)
    | _ => .error {}

/-- A rule runs when it is selected and not ignored. A rule that is not selected is not looked up
among the ignored ones. -/
def isEnabled (select ignore : Value) (id : String) : Except WrongType Bool :=
  match isSelected select id with
  | .error e => .error e
  | .ok false => .ok false
  | .ok true =>
    match isIgnored ignore id with
    | .error e => .error e
    | .ok ignored => .ok !ignored

/-- The entries whose ids are enabled, in their order. -/
def enabled {α : Type} (select ignore : Value) (id : α → String) (entries : List α) :
    Except WrongType (List α) :=
  filterOrFail (fun entry => isEnabled select ignore (id entry)) entries

/-! ## Manifests -/

/-- The name of the path matches a pattern. -/
def isManifest (patterns : List Value) (p : Path) : Except WrongType Bool :=
  anyPart (fun pattern => Glob.accepts pattern p.name) patterns

/-! ## Selecting by texts

Settings that hold nothing but texts are never of the wrong type, so a selection by them is a filter
by a plain test.
-/

theorem anyPart_texts (holds : String → Bool) (texts : List String) :
    anyPart holds (texts.map .string) = .ok (texts.any holds) := by
  induction texts with
  | nil => rfl
  | cons text texts ih =>
    rw [List.map_cons, anyPart, List.any_cons, ih]
    cases holds text <;> rfl

theorem filterOrFail_ok {α : Type} (test : α → Bool) (entries : List α) :
    filterOrFail (fun entry => .ok (test entry)) entries = .ok (entries.filter test) := by
  induction entries with
  | nil => rfl
  | cons entry entries ih =>
    rw [filterOrFail, ih, List.filter_cons]

/-- The name of the path matches one of the patterns. -/
def isNamed (patterns : List String) (p : Path) : Bool :=
  patterns.any fun pattern => Glob.accepts pattern p.name

theorem isManifest_texts (patterns : List String) (p : Path) :
    isManifest (patterns.map .string) p = .ok (isNamed patterns p) :=
  anyPart_texts _ _

end ManifestOrder
