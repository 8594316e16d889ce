import CloudFleet.Api.MarkupReader
import Mathlib.Data.List.TakeWhile

/-!
# What is written is read back

An element is written as a tag that opens it, what it holds, and a tag that closes it. If names are made of letters, and
what an element holds is elements or else one text, the lexemes of what is written are these tags and texts
(`Proper.lexemes?_write`), and they are put together to the same element again (`Proper.build?_lexemes`).

Main statement: `Proper.read?_write`.
-/

set_option autoImplicit false

namespace CloudFleet.Markup

/-- Whether a text is a name made of letters. -/
def IsName (name : String) : Prop := name ≠ "" ∧ name.toList.all Char.isAlpha = true

instance (name : String) : Decidable (IsName name) := inferInstanceAs (Decidable (_ ∧ _))

/-- An element that is read back as it was written: it holds one text that is not empty, or elements of this kind. -/
inductive Proper : Markup → Prop
  | leaf {name content : String} : IsName name → content ≠ "" → Proper (.element name [.text content])
  | tree {name : String} {children : List Markup} :
    IsName name → (∀ m ∈ children, Proper m) → Proper (.element name children)

/-! ## Texts -/

theorem not_mem_escapeChar (c : Char) : '<' ∉ escapeChar c := by
  unfold escapeChar
  split
  · decide
  · decide
  · decide
  · rename_i h _
    simpa using Ne.symm h

theorem not_mem_escape (cs : List Char) : '<' ∉ cs.flatMap escapeChar := by
  intro h
  obtain ⟨c, -, hc⟩ := List.mem_flatMap.mp h
  exact not_mem_escapeChar c hc

/-- A character is read back from how it is written. -/
theorem unescape?_escapeChar (c : Char) (rest : List Char) :
    unescape? none (escapeChar c ++ rest) = (unescape? none rest).map (c :: ·) := by
  have hamp : entity? ['a', 'm', 'p'] = some '&' := by decide +kernel
  have hlt : entity? ['l', 't'] = some '<' := by decide +kernel
  have hgt : entity? ['g', 't'] = some '>' := by decide +kernel
  unfold escapeChar
  split
  · cases h : unescape? none rest <;> simp [unescape?, hamp, h]
  · cases h : unescape? none rest <;> simp [unescape?, hlt, h]
  · cases h : unescape? none rest <;> simp [unescape?, hgt, h]
  · simp [unescape?]

theorem unescape?_escape (cs : List Char) : unescape? none (cs.flatMap escapeChar) = some cs := by
  induction cs with
  | nil => rfl
  | cons c cs ih =>
    rw [List.flatMap_cons, unescape?_escapeChar, ih]
    rfl

/-- What stands between tags is read up to the next one. -/
theorem lexemes?_text {cs : List Char} (h : '<' ∉ cs) (seen rest : List Char) :
    lexemes? false seen (cs ++ rest) = lexemes? false (cs.reverse ++ seen) rest := by
  induction cs generalizing seen with
  | nil => rfl
  | cons c cs ih =>
    have hc : c ≠ '<' := Ne.symm (List.ne_of_not_mem_cons h)
    have hstep : lexemes? false seen (c :: (cs ++ rest)) = lexemes? false (c :: seen) (cs ++ rest) := by
      simp [lexemes?]
    rw [List.cons_append, hstep, ih (List.not_mem_of_not_mem_cons h), List.reverse_cons, List.append_assoc,
      List.singleton_append]

/-- The text that was read before a tag is the one that was written. -/
theorem withText?_escape {content : String} (h : content ≠ "") (lexemes : List Lexeme) :
    withText? (content.toList.flatMap escapeChar).reverse lexemes = some (.text content :: lexemes) := by
  have hsome : (content.toList.flatMap escapeChar).reverse.isEmpty = false := by
    cases hc : content.toList with
    | nil => exact absurd (String.toList_eq_nil_iff.mp hc) h
    | cons c cs =>
      have hne : escapeChar c ≠ [] := by
        unfold escapeChar
        split <;> simp
      simp [hne]
  rw [withText?, hsome, if_neg Bool.false_ne_true, List.reverse_reverse, unescape?_escape]
  simp

/-! ## Tags -/

/-- What stands in a tag is read up to the bracket that ends it. -/
theorem lexemes?_tag {cs : List Char} (h : '>' ∉ cs) (seen rest : List Char) :
    lexemes? true seen (cs ++ rest) = lexemes? true (cs.reverse ++ seen) rest := by
  induction cs generalizing seen with
  | nil => rfl
  | cons c cs ih =>
    have hc : c ≠ '>' := Ne.symm (List.ne_of_not_mem_cons h)
    have hstep : lexemes? true seen (c :: (cs ++ rest)) = lexemes? true (c :: seen) (cs ++ rest) := by
      simp [lexemes?]
    rw [List.cons_append, hstep, ih (List.not_mem_of_not_mem_cons h), List.reverse_cons, List.append_assoc,
      List.singleton_append]

/-- A bracket ends every tag but that of a comment. -/
theorem endsTag_of_not_mem {seen : List Char} (h : '!' ∉ seen) : endsTag seen = true := by
  have hprefix : ¬"!--".toList.isPrefixOf seen.reverse = true := fun hp =>
    h (List.mem_reverse.mp ((List.isPrefixOf_iff_prefix.mp hp).subset (by decide)))
  rw [endsTag, if_neg hprefix]

section Named

variable {name : String} (hname : IsName name)
include hname

theorem IsName.not_mem {c : Char} (hc : c.isAlpha = false) : c ∉ name.toList := by
  intro h
  rw [List.all_eq_true.mp hname.2 c h] at hc
  cases hc

theorem tagName_eq : tagName name.toList = name := by
  have hall : name.toList.takeWhile (fun c => !isSpace c && c != '/') = name.toList := by
    refine List.takeWhile_eq_self_iff.mpr fun c hc => ?_
    have hne : ∀ other : Char, other.isAlpha = false → c ≠ other := fun other ho he => hname.not_mem ho (he ▸ hc)
    simp [isSpace, hne ' ' rfl, hne '\t' rfl, hne '\n' rfl, hne '\r' rfl, hne '/' rfl]
  rw [tagName, hall, String.ofList_toList]

theorem tagLexemes_name : tagLexemes name.toList = [.opened name] := by
  have hlast : name.toList.getLast? ≠ some '/' := fun h => hname.not_mem rfl (List.mem_of_getLast? h)
  unfold tagLexemes
  split
  · rename_i rest hrest
    exact absurd (hrest ▸ List.mem_cons_self) (hname.not_mem (c := '/') rfl)
  · rename_i rest hrest
    exact absurd (hrest ▸ List.mem_cons_self) (hname.not_mem (c := '?') rfl)
  · rename_i rest hrest
    exact absurd (hrest ▸ List.mem_cons_self) (hname.not_mem (c := '!') rfl)
  · rw [if_neg hlast, tagName_eq hname]

/-- The tag that opens an element. -/
theorem lexemes?_opened (rest : List Char) :
    lexemes? true [] (name.toList ++ '>' :: rest) = (lexemes? false [] rest).map (.opened name :: ·) := by
  rw [lexemes?_tag (hname.not_mem rfl), List.append_nil, lexemes?,
    if_pos (endsTag_of_not_mem (by simpa using hname.not_mem (c := '!') rfl)), List.reverse_reverse,
    tagLexemes_name hname]
  rfl

/-- The tag that closes an element. -/
theorem lexemes?_closed (rest : List Char) :
    lexemes? true [] ('/' :: (name.toList ++ '>' :: rest)) = (lexemes? false [] rest).map (.closed name :: ·) := by
  have hslash : '>' ∉ '/' :: name.toList := by
    simpa using hname.not_mem (c := '>') rfl
  have hmark : '!' ∉ ('/' :: name.toList).reverse := by
    simpa using hname.not_mem (c := '!') rfl
  rw [← List.cons_append, lexemes?_tag hslash, List.append_nil, lexemes?, if_pos (endsTag_of_not_mem hmark),
    List.reverse_reverse, tagLexemes, tagName_eq hname]
  rfl

end Named

/-! ## Elements -/

mutual

/-- The tags and texts of a piece. -/
def lexemes : Markup → List Lexeme
  | text content => [.text content]
  | element name children => .opened name :: (lexemesOfAll children ++ [.closed name])

/-- The tags and texts of pieces one after the other. -/
def lexemesOfAll : List Markup → List Lexeme
  | [] => []
  | m :: ms => lexemes m ++ lexemesOfAll ms

end

theorem toList_write_element (name : String) (children : List Markup) :
    (write (.element name children)).toList
      = '<' :: (name.toList ++ '>' :: ((writeAll children).toList ++ '<' :: '/' :: (name.toList ++ ['>']))) := by
  simp [write, toString]

/-- At the start, and after a tag, another one may follow at once. -/
theorem lexemes?_tag_first (rest : List Char) : lexemes? false [] ('<' :: rest) = lexemes? true [] rest := by
  rw [lexemes?]
  cases lexemes? true [] rest <;> rfl

/-- The lexemes of an element by those of what it holds. -/
theorem lexemes?_element {name : String} (hname : IsName name) {children : List Markup}
    (hheld : ∀ rest, lexemes? false [] ((writeAll children).toList ++ '<' :: rest)
      = (lexemes? true [] rest).map (lexemesOfAll children ++ ·)) (rest : List Char) :
    lexemes? false [] ((write (.element name children)).toList ++ rest)
      = (lexemes? false [] rest).map (lexemes (.element name children) ++ ·) := by
  simp only [toList_write_element, List.cons_append, List.append_assoc, List.nil_append]
  rw [lexemes?_tag_first, lexemes?_opened hname, hheld, lexemes?_closed hname]
  simp [lexemes, Function.comp_def]

/-- What is read one by one is read one after the other. -/
theorem lexemes?_writeAll {children : List Markup}
    (h : ∀ m ∈ children, ∀ rest,
      lexemes? false [] ((write m).toList ++ rest) = (lexemes? false [] rest).map (m.lexemes ++ ·))
    (rest : List Char) :
    lexemes? false [] ((writeAll children).toList ++ rest)
      = (lexemes? false [] rest).map (lexemesOfAll children ++ ·) := by
  induction children with
  | nil => simp [writeAll, lexemesOfAll]
  | cons m children ih =>
    rw [writeAll, String.toList_append, List.append_assoc, h m List.mem_cons_self,
      ih fun m' hm' => h m' (List.mem_cons_of_mem _ hm')]
    simp [lexemesOfAll, Function.comp_def]

/-- Elements that are put together one by one are put together one after the other. -/
theorem build?_lexemesOfAll {children : List Markup}
    (h : ∀ m ∈ children, ∀ name held frames rest,
      build? ((name, held) :: frames) (m.lexemes ++ rest) = build? ((name, m :: held) :: frames) rest)
    (name : String) (held : List Markup) (frames : List (String × List Markup)) (rest : List Lexeme) :
    build? ((name, held) :: frames) (lexemesOfAll children ++ rest)
      = build? ((name, children.reverse ++ held) :: frames) rest := by
  induction children generalizing held with
  | nil => rfl
  | cons m children ih =>
    rw [lexemesOfAll, List.append_assoc, h m List.mem_cons_self, ih fun m' hm' => h m' (List.mem_cons_of_mem _ hm'),
      List.reverse_cons, List.append_assoc, List.singleton_append]

namespace Proper

variable {m : Markup}

/-- The lexemes of what is written are the tags and texts. -/
theorem lexemes?_write (h : Proper m) (rest : List Char) :
    lexemes? false [] ((write m).toList ++ rest) = (lexemes? false [] rest).map (m.lexemes ++ ·) := by
  induction h generalizing rest with
  | @leaf name content hname hcontent =>
    refine lexemes?_element hname (fun rest => ?_) rest
    have hwritten : (writeAll [.text content]).toList = content.toList.flatMap escapeChar := by
      simp [writeAll, write, escape]
    rw [hwritten, lexemes?_text (not_mem_escape _), List.append_nil, lexemes?]
    cases lexemes? true [] rest with
    | none => rfl
    | some lexemes => exact withText?_escape hcontent lexemes
  | @tree name children hname hchildren ih =>
    refine lexemes?_element hname (fun rest => ?_) rest
    rw [lexemes?_writeAll ih, lexemes?_tag_first]

/-- In an element that is open, they are put together to what was written. -/
theorem build?_lexemes (h : Proper m) (name : String) (held : List Markup) (frames : List (String × List Markup))
    (rest : List Lexeme) :
    build? ((name, held) :: frames) (m.lexemes ++ rest) = build? ((name, m :: held) :: frames) rest := by
  induction h generalizing name held frames rest with
  | leaf hname hcontent => simp [lexemes, lexemesOfAll, build?]
  | tree hname hchildren ih =>
    have hheld := build?_lexemesOfAll ih
    simp [lexemes, build?, hheld]

/-- What is written is read back. -/
theorem read?_write (h : Proper m) : read? m.write = some m := by
  have hlexemes := h.lexemes?_write []
  rw [List.append_nil] at hlexemes
  have hnil : lexemes? false [] [] = some [] := rfl
  rw [read?, hlexemes, hnil]
  cases h with
  | leaf hname hcontent => simp [lexemes, lexemesOfAll, build?, isOver]
  | tree hname hchildren =>
    have hheld := build?_lexemesOfAll fun m hm => (hchildren m hm).build?_lexemes
    simp [lexemes, build?, hheld, isOver]

end Proper

end CloudFleet.Markup
