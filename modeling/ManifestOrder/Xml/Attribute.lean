import ManifestOrder.Xml.Lexeme

/-!
# Attributes

An attribute is a name, an equals sign and a value in quotes. White space must stand before each
one. Names may repeat; nothing later asks for them, so a list of attributes is only skipped.
-/

namespace ManifestOrder.Xml

open Text

def attribute? (s : List Char) : Option (List Char) :=
  ((name? s).bind equals?).bind (quoted? (isValue ['<', '\x00']))

theorem attribute?_rest {s rest : List Char} (read : attribute? s = some rest) :
    IsRestOf rest s := by
  obtain ⟨quote, front, value⟩ := Option.bind_eq_some_iff.1 read
  obtain ⟨sign, name, equal⟩ := Option.bind_eq_some_iff.1 front
  exact ((quoted?_rest value).after_suffix (equals?_suffix equal)).trans (run?_rest name)

/-- What follows all attributes at the front of `s`, and the white space after the last one. -/
def skipAttributes (s : List Char) : List Char :=
  match _ : space? s with
  | none => s
  | some inner =>
    match _ : attribute? inner with
    | none => inner
    | some rest => skipAttributes rest
termination_by s.length
decreasing_by
  exact ((attribute?_rest ‹attribute? inner = some rest›).trans
    (run?_rest ‹space? s = some inner›)).length_lt

theorem skipAttributes_suffix (s : List Char) : skipAttributes s <:+ s := by
  fun_induction skipAttributes s with
  | case1 s _ => exact List.suffix_refl s
  | case2 s inner blanks _ => exact (run?_rest blanks).suffix
  | case3 s inner blanks rest read ih =>
    exact ih.trans ((attribute?_rest read).trans (run?_rest blanks)).suffix

end ManifestOrder.Xml
