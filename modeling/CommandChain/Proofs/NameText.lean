import CommandChain.QName
import Mathlib.Data.List.Infix

/-!
When the text of a name reads back. The reader tries the three forms one after the other, and of all
ways to take a text for the braced form the one with the longest uri counts. So the text of a name
reads back exactly when no other way to take it comes before the one that it was written in.
-/
namespace CommandChain.QName

/-! ### The braced form -/

/-- A way to split a text at a closing brace with no opening one before it and something behind. -/
structure Closing (text before after : List Char) : Prop where
  shape : text = before ++ '}' :: after
  closed : '{' ∉ before
  more : after ≠ []

theorem Closing.cons_iff {c : Char} {rest before after : List Char} :
    Closing (c :: rest) before after ↔
      (before = [] ∧ c = '}' ∧ after = rest ∧ rest ≠ []) ∨
      ∃ before', before = c :: before' ∧ c ≠ '{' ∧ Closing rest before' after := by
  constructor
  · intro closing
    cases before with
    | nil =>
      obtain ⟨here, rfl⟩ := List.cons.inj closing.shape
      exact .inl ⟨rfl, here, rfl, closing.more⟩
    | cons d before' =>
      obtain ⟨rfl, shape⟩ := List.cons.inj closing.shape
      obtain ⟨differ, closed⟩ := not_or.mp (mt List.mem_cons.mpr closing.closed)
      exact .inr ⟨before', rfl, Ne.symm differ, shape, closed, closing.more⟩
  · rintro (⟨rfl, rfl, rfl, more⟩ | ⟨before', rfl, differ, closing⟩)
    · exact ⟨rfl, List.not_mem_nil, more⟩
    · refine ⟨by rw [closing.shape]; rfl, ?_, closing.more⟩
      simp [closing.closed, Ne.symm differ]

theorem splitLastBrace_none {text : List Char} (split : splitLastBrace text = none) :
    ∀ before after, ¬Closing text before after := by
  induction text with
  | nil =>
    intro before after closing
    simpa using closing.shape
  | cons c rest ih =>
    intro before after closing
    rw [splitLastBrace] at split
    rcases Closing.cons_iff.mp closing with ⟨-, here, -, more⟩ | ⟨before', -, differ, later⟩
    · cases found : splitLastBrace rest with
      | none => simp [here, found, more] at split
      | some pair => simp [here, found] at split
    · cases found : splitLastBrace rest with
      | none => exact ih found before' after later
      | some pair => simp [differ, found] at split

theorem splitLastBrace_some {text before after : List Char}
    (split : splitLastBrace text = some (before, after)) :
    Closing text before after ∧
      ∀ before' after', Closing text before' after' → before'.length ≤ before.length := by
  induction text generalizing before after with
  | nil => cases split
  | cons c rest ih =>
    rw [splitLastBrace] at split
    by_cases opening : c = '{'
    · simp [opening] at split
    rw [if_neg opening] at split
    cases found : splitLastBrace rest with
    | none =>
      rw [found] at split
      by_cases here : c = '}' ∧ rest ≠ []
      · simp only [if_pos here, Option.some.injEq, Prod.mk.injEq] at split
        obtain ⟨rfl, rfl⟩ := split
        refine ⟨Closing.cons_iff.mpr (.inl ⟨rfl, here.1, rfl, here.2⟩), fun before' after' way => ?_⟩
        rcases Closing.cons_iff.mp way with ⟨rfl, -⟩ | ⟨inner, -, -, later⟩
        · exact Nat.le_refl _
        · exact absurd later (splitLastBrace_none found inner after')
      · simp [here] at split
    | some pair =>
      obtain ⟨inner, tail⟩ := pair
      simp only [found, Option.some.injEq, Prod.mk.injEq] at split
      obtain ⟨rfl, rfl⟩ := split
      obtain ⟨closing, longest⟩ := ih found
      refine ⟨Closing.cons_iff.mpr (.inr ⟨inner, rfl, opening, closing⟩), fun before' after' way => ?_⟩
      rcases Closing.cons_iff.mp way with ⟨rfl, -⟩ | ⟨inner', rfl, -, later⟩
      · exact Nat.zero_le _
      · exact Nat.succ_le_succ (longest inner' after' later)

/-- A way to take a text for the braced form: a uri in braces, and a local part on one line. -/
structure Braced (text uri localPart : List Char) : Prop where
  shape : text = '{' :: (uri ++ '}' :: localPart)
  closed : '{' ∉ uri
  named : localPart ≠ []
  one_line : '\n' ∉ localPart

theorem Braced.closing {rest uri localPart : List Char}
    (braced : Braced ('{' :: rest) uri localPart) : Closing rest uri localPart :=
  ⟨(List.cons.inj braced.shape).2, braced.closed, braced.named⟩

theorem splitUri_none {text : List Char} (split : splitUri text = none) :
    ∀ uri localPart, ¬Braced text uri localPart := by
  intro uri localPart braced
  obtain ⟨rest, rfl⟩ : ∃ rest, text = '{' :: rest := ⟨_, braced.shape⟩
  cases found : splitLastBrace rest with
  | none => exact splitLastBrace_none found uri localPart braced.closing
  | some pair =>
    obtain ⟨longest, tail⟩ := pair
    obtain ⟨closing, least⟩ := splitLastBrace_some found
    have shorter := least uri localPart braced.closing
    -- What follows the last brace also follows the brace of any other way.
    have within : tail <:+ localPart := by
      have one : tail <:+ rest := ⟨longest ++ ['}'], by simp [closing.shape]⟩
      have other : localPart <:+ rest := ⟨uri ++ ['}'], by simp [braced.closing.shape]⟩
      refine List.suffix_of_suffix_length_le one other ?_
      have lengths := congrArg List.length (closing.shape.symm.trans braced.closing.shape)
      simp only [List.length_append, List.length_cons] at lengths
      omega
    simp only [splitUri, found] at split
    split at split
    · rename_i newline
      exact braced.one_line (within.subset newline)
    · cases split

theorem splitUri_some {text uri localPart : List Char}
    (split : splitUri text = some (uri, localPart)) : Braced text uri localPart ∧
      ∀ uri' localPart', Braced text uri' localPart' → uri'.length ≤ uri.length := by
  unfold splitUri at split
  split at split
  · rename_i rest
    cases found : splitLastBrace rest with
    | none => simp [found] at split
    | some pair =>
      simp only [found] at split
      split at split
      · cases split
      · rename_i one_line
        obtain ⟨rfl, rfl⟩ := Prod.mk.inj (Option.some.inj split)
        obtain ⟨closing, longest⟩ := splitLastBrace_some found
        refine ⟨⟨?_, closing.closed, closing.more, one_line⟩, fun uri' localPart' other => ?_⟩
        · rw [closing.shape]
        · exact longest uri' localPart' other.closing
  · cases split

/-- Of all ways to take a text for the braced form, the one with the longest uri counts. -/
theorem splitUri_eq_some_iff {text uri localPart : List Char} :
    splitUri text = some (uri, localPart) ↔ Braced text uri localPart ∧
      ∀ uri' localPart', Braced text uri' localPart' → uri'.length ≤ uri.length := by
  refine ⟨splitUri_some, fun ⟨braced, longest⟩ => ?_⟩
  cases found : splitUri text with
  | none => exact absurd braced (splitUri_none found uri localPart)
  | some pair =>
    obtain ⟨braced', longest'⟩ := splitUri_some found
    have lengths : pair.1.length = uri.length :=
      Nat.le_antisymm (longest _ _ braced') (longest' _ _ braced)
    have shapes := (List.cons.inj (braced'.shape.symm.trans braced.shape)).2
    obtain ⟨uris, locals⟩ := List.append_inj shapes lengths
    rw [← uris, ← (List.cons.inj locals).2]

theorem splitUri_eq_none_iff {text : List Char} :
    splitUri text = none ↔ ∀ uri localPart, ¬Braced text uri localPart := by
  refine ⟨splitUri_none, fun no_way => ?_⟩
  cases found : splitUri text with
  | none => rfl
  | some pair => exact absurd (splitUri_some found).1 (no_way pair.1 pair.2)

theorem splitLastBrace_eq_none_iff {text : List Char} : splitLastBrace text = none ↔
    ∀ before after, text = before ++ '}' :: after → after ≠ [] → '{' ∈ before := by
  constructor
  · intro split before after shape more
    by_contra absent
    exact splitLastBrace_none split before after ⟨shape, absent, more⟩
  · intro opened
    cases found : splitLastBrace text with
    | none => rfl
    | some pair =>
      have closing := (splitLastBrace_some found).1
      exact absurd (opened _ _ closing.shape closing.more) closing.closed

/-- A text is split where it was put together exactly if no later closing brace, with something
behind it, follows the local part's start without an opening brace in between. -/
theorem splitUri_written {uri localPart : List Char} :
    splitUri ('{' :: (uri ++ '}' :: localPart)) = some (uri, localPart) ↔
      '{' ∉ uri ∧ localPart ≠ [] ∧ '\n' ∉ localPart ∧
        ∀ before after, localPart = before ++ '}' :: after → after ≠ [] → '{' ∈ before := by
  rw [splitUri_eq_some_iff]
  constructor
  · rintro ⟨braced, longest⟩
    refine ⟨braced.closed, braced.named, braced.one_line, fun before after shape more => ?_⟩
    by_contra absent
    have later : Braced ('{' :: (uri ++ '}' :: localPart)) (uri ++ '}' :: before) after := by
      refine ⟨by simp [shape], ?_, more, ?_⟩
      · simp [braced.closed, absent]
      · intro newline
        exact braced.one_line (by simp [shape, newline])
    have longer := longest _ _ later
    simp only [List.length_append, List.length_cons] at longer
    omega
  · rintro ⟨closed, named, one_line, opened⟩
    refine ⟨⟨rfl, closed, named, one_line⟩, fun uri' localPart' other => ?_⟩
    have shapes := (List.cons.inj other.shape).2
    rcases List.append_eq_append_iff.mp shapes with ⟨between, longer, rest⟩ | ⟨between, shorter, -⟩
    · cases between with
      | nil => simp [longer]
      | cons brace before =>
        obtain ⟨rfl, shape⟩ := List.cons.inj rest
        have inside := opened before localPart' shape other.named
        exact absurd (by simp [longer, inside]) other.closed
    · simp [shorter]

/-! ### The form with a prefix -/

theorem splitColon_some {text before after : List Char}
    (split : splitColon text = some (before, after)) : text = before ++ ':' :: after := by
  induction text generalizing before with
  | nil => cases split
  | cons c rest ih =>
    rw [splitColon] at split
    split at split
    · rename_i colon
      simp only [Option.some.injEq, Prod.mk.injEq] at split
      obtain ⟨rfl, rfl⟩ := split
      rw [colon]
      rfl
    · obtain ⟨pair, found, same⟩ := Option.map_eq_some_iff.mp split
      obtain ⟨rfl, rfl⟩ := Prod.mk.inj same
      rw [ih found]
      rfl

theorem splitColon_eq_none_iff (text : List Char) : splitColon text = none ↔ ':' ∉ text := by
  induction text with
  | nil => simp [splitColon]
  | cons c rest ih =>
    by_cases colon : c = ':'
    · simp [splitColon, colon]
    · simp [splitColon, colon, ih, Ne.symm colon]

/-! ### Names and their texts -/

/-- Whether a name is in no namespace rather than in the empty one. All names are that are put
together or read. -/
def Proper (name : QName) : Prop := name.namespaceUri ≠ some ""

theorem proper_plain (localName : String) : (plain localName).Proper := by simp [Proper, plain]

theorem proper_qualified (uri localName : String) : (qualified uri localName).Proper := by
  unfold Proper qualified
  split <;> simp_all

theorem parse_ok {text : String} {resolve : String → Option String} {name : QName}
    (read : parse text resolve = .ok name) :
    (∃ uri localPart, splitUri text.toList = some (uri, localPart) ∧
      name = qualified (String.ofList uri) (String.ofList localPart)) ∨
    splitUri text.toList = none ∧
      ((∃ before after uri, splitColon text.toList = some (before, after) ∧
        name = qualified uri (String.ofList after)) ∨
      (':' ∉ text.toList ∧ text ≠ "" ∧ name = plain text)) := by
  unfold parse at read
  split at read
  · rename_i uri localPart braced
    exact .inl ⟨uri, localPart, braced, (Except.ok.inj read).symm⟩
  · rename_i unbraced
    refine .inr ⟨unbraced, ?_⟩
    split at read
    · rename_i before after colon
      split at read
      · cases read
      · split at read
        · rename_i uri found
          exact .inl ⟨before, after, uri, colon, (Except.ok.inj read).symm⟩
        · cases read
    · rename_i no_colon
      split at read
      · cases read
      · rename_i something
        exact .inr ⟨(splitColon_eq_none_iff _).mp no_colon, something, (Except.ok.inj read).symm⟩

theorem proper_of_parse {text : String} {resolve : String → Option String} {name : QName}
    (read : parse text resolve = .ok name) : name.Proper := by
  rcases parse_ok read with ⟨uri, localPart, -, rfl⟩ | ⟨-, ⟨before, after, uri, -, rfl⟩ | ⟨-, -, rfl⟩⟩
  · exact proper_qualified _ _
  · exact proper_qualified _ _
  · exact proper_plain text

/-- Whether the text of a name can be taken in no other way than it was written. -/
def Unambiguous (name : QName) : Prop :=
  match name.namespaceUri with
  | some uri =>
    '{' ∉ uri.toList ∧ name.localName ≠ "" ∧ '\n' ∉ name.localName.toList ∧
      ∀ before after, name.localName.toList = before ++ '}' :: after → after ≠ [] → '{' ∈ before
  | none =>
    name.localName ≠ "" ∧ ':' ∉ name.localName.toList ∧
      ∀ uri localPart, ¬Braced name.localName.toList uri localPart

instance : DecidablePred Unambiguous
  | ⟨some uri, localName⟩ =>
    decidable_of_iff ('{' ∉ uri.toList ∧ localName ≠ "" ∧ '\n' ∉ localName.toList ∧
      splitLastBrace localName.toList = none) (by rw [splitLastBrace_eq_none_iff]; rfl)
  | ⟨none, localName⟩ =>
    decidable_of_iff (localName ≠ "" ∧ ':' ∉ localName.toList ∧ splitUri localName.toList = none)
      (by rw [splitUri_eq_none_iff]; rfl)

theorem qualified_eq_some_iff {uri localName uri' localName' : String} :
    qualified uri localName = ⟨some uri', localName'⟩ ↔
      uri ≠ "" ∧ uri = uri' ∧ localName = localName' := by
  by_cases empty : uri = "" <;> simp [qualified, empty]

theorem qualified_eq_none {uri localName localName' : String}
    (same : qualified uri localName = ⟨none, localName'⟩) : localName = localName' := by
  by_cases empty : uri = "" <;> simp_all [qualified]

section

variable (resolve : String → Option String)

theorem parse_text_namespace {uri : String} (proper : uri ≠ "") (localName : String) :
    parse (QName.mk (some uri) localName).text resolve = .ok ⟨some uri, localName⟩ ↔
      Unambiguous ⟨some uri, localName⟩ := by
  have written : (QName.mk (some uri) localName).text.toList =
      '{' :: (uri.toList ++ '}' :: localName.toList) := by simp [text]
  have meaning : Unambiguous ⟨some uri, localName⟩ ↔
      splitUri (QName.mk (some uri) localName).text.toList =
        some (uri.toList, localName.toList) := by
    rw [written, splitUri_written]
    simp [Unambiguous]
  rw [meaning]
  constructor
  · intro read
    rcases parse_ok read with ⟨u, l, split, same⟩ |
      ⟨-, ⟨before, after, u, split, same⟩ | ⟨-, -, same⟩⟩
    · obtain ⟨-, rfl, rfl⟩ := qualified_eq_some_iff.mp same.symm
      simpa using split
    · -- The local part ends the text, so what precedes it is a brace and no colon.
      obtain ⟨-, -, rfl⟩ := qualified_eq_some_iff.mp same.symm
      have shape := written.symm.trans (splitColon_some split)
      have ends : ('{' :: uri.toList ++ ['}']) ++ after = (before ++ [':']) ++ after := by
        simpa using shape
      have brace := (List.append_inj' (List.append_cancel_right ends) rfl).2
      simp at brace
    · cases same
  · intro split
    unfold parse
    rw [split]
    simp [qualified, proper]

theorem parse_text_plain (localName : String) :
    parse (QName.mk none localName).text resolve = .ok ⟨none, localName⟩ ↔
      Unambiguous ⟨none, localName⟩ := by
  have written : (QName.mk none localName).text = localName := rfl
  rw [written]
  constructor
  · intro read
    rcases parse_ok read with ⟨u, l, split, same⟩ |
      ⟨unbraced, ⟨before, after, u, split, same⟩ | ⟨no_colon, something, -⟩⟩
    · -- A local part that was read after braces is shorter than the text.
      have whole := qualified_eq_none same.symm
      have shape := (splitUri_some split).1.shape
      rw [← whole] at shape
      have lengths := congrArg List.length shape
      simp at lengths
      omega
    · have whole := qualified_eq_none same.symm
      have shape := splitColon_some split
      rw [← whole] at shape
      have lengths := congrArg List.length shape
      simp at lengths
      omega
    · exact ⟨something, no_colon, splitUri_none unbraced⟩
  · rintro ⟨something, no_colon, unbraced⟩
    unfold parse
    rw [splitUri_eq_none_iff.mpr unbraced, (splitColon_eq_none_iff _).mpr no_colon]
    have something' : localName ≠ "" := something
    simp [something', plain]

/-- The text of a name reads back, whatever prefixes stand for, exactly if it is unambiguous. -/
theorem parse_text_iff {name : QName} (proper : name.Proper) :
    parse name.text resolve = .ok name ↔ name.Unambiguous := by
  obtain ⟨namespaceUri, localName⟩ := name
  cases namespaceUri with
  | none => exact parse_text_plain resolve localName
  | some uri => exact parse_text_namespace resolve (fun empty => proper (by rw [empty])) localName

end

/-- Braces in a local part do no harm if they open before they close. -/
theorem parse_text_template :
    Proper ⟨some "urn:x", "on-\x7bevent\x7d!"⟩ ∧
    parse "\x7burn:x\x7don-\x7bevent\x7d!" (fun _ => none) =
      .ok ⟨some "urn:x", "on-\x7bevent\x7d!"⟩ := by
  have proper : Proper ⟨some "urn:x", "on-\x7bevent\x7d!"⟩ := by simp [Proper]
  exact ⟨proper, (parse_text_iff (fun _ => none) proper).mpr (by decide)⟩

end CommandChain.QName
