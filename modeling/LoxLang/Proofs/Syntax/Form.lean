/-
**Printed forms, and why they are read in one way only.**

What is printed is a word, a quoted text, or forms in parentheses with a space between any two.  A word
has no blank, parenthesis or quote in it, and a quoted text no quote.  So where the text of a form ends is
told by the text itself, and texts of forms in front of what stops a word are equal only if the forms are.

* `LoxLang.Form`, `LoxLang.Form.chars` — forms and their texts;
* `LoxLang.Form.Readable` — words and quoted texts that are read back;
* `LoxLang.Form.chars_append_inj` — **a form is told by its text, wherever it stands**;
* `LoxLang.Form.lines_inj` — forms on lines of their own.
-/

import Mathlib.Data.List.TakeWhile

set_option relaxedAutoImplicit false
set_option autoImplicit false

namespace LoxLang

/-- What is printed. -/
inductive Form where
  | word (text : String)
  | quoted (text : String)
  | list (items : List Form)

namespace Form

/-! ### Texts -/

mutual

/-- The text of a form. -/
def chars : Form → List Char
  | .word text => text.toList
  | .quoted text => '"' :: (text.toList ++ ['"'])
  | .list items => '(' :: inside items

/-- The text of forms behind an opening parenthesis, with the closing one. -/
def inside : List Form → List Char
  | [] => [')']
  | f :: fs => f.chars ++ behind fs

/-- The text of what is left in the parentheses, with the closing one. -/
def behind : List Form → List Char
  | [] => [')']
  | f :: fs => ' ' :: (f.chars ++ behind fs)

end

/-- The text of forms that begin lines of their own behind another one. -/
def further : List Form → List Char
  | [] => []
  | f :: fs => '\n' :: (f.chars ++ further fs)

/-- The text of forms, each on a line of its own. -/
def lines : List Form → List Char
  | [] => []
  | f :: fs => f.chars ++ further fs

/-! ### Readable forms -/

/-- A character of a word. -/
def isInWord (c : Char) : Bool := c != ' ' && c != '\n' && c != '(' && c != ')' && c != '"'

mutual

/-- Words have characters of words only, at least one, and quoted texts have no quote. -/
def Readable : Form → Prop
  | .word text => text.toList ≠ [] ∧ ∀ c ∈ text.toList, isInWord c = true
  | .quoted text => '"' ∉ text.toList
  | .list items => AllReadable items

/-- All the forms are readable. -/
def AllReadable : List Form → Prop
  | [] => True
  | f :: fs => f.Readable ∧ AllReadable fs

end

theorem allReadable_iff {fs : List Form} : AllReadable fs ↔ ∀ f ∈ fs, f.Readable := by
  induction fs with
  | nil => exact ⟨fun _ => List.forall_mem_nil _, fun _ => trivial⟩
  | cons f fs ih => rw [AllReadable, ih, List.forall_mem_cons]

/-- No word goes on over the text. -/
def Stops (text : List Char) : Prop := ∀ c ∈ text.head?, isInWord c = false

theorem stops_cons {c : Char} (h : isInWord c = false) (text : List Char) : Stops (c :: text) := by
  intro other ho
  cases ho
  exact h

theorem stops_behind (fs : List Form) (rest : List Char) : Stops (behind fs ++ rest) := by
  cases fs with
  | nil => exact stops_cons rfl _
  | cons f fs => exact stops_cons rfl _

theorem stops_further (fs : List Form) : Stops (further fs) := by
  cases fs with
  | nil => exact nofun
  | cons f fs => exact stops_cons rfl _

/-! ### Reading in one way -/

/-- A word in front of what stops it is all that goes on in words. -/
theorem spanning_word {word rest : List Char} (hw : ∀ c ∈ word, isInWord c = true)
    (hr : Stops rest) :
    (word ++ rest).takeWhile isInWord = word ∧ (word ++ rest).dropWhile isInWord = rest := by
  rw [List.takeWhile_append_of_pos hw, List.dropWhile_append_of_pos hw]
  cases rest with
  | nil => exact ⟨List.append_nil _, rfl⟩
  | cons c rest =>
      have hc : isInWord c = false := hr c rfl
      rw [List.takeWhile_cons_of_neg (by rw [hc]; exact Bool.false_ne_true),
        List.dropWhile_cons_of_neg (by rw [hc]; exact Bool.false_ne_true), List.append_nil]
      exact ⟨rfl, rfl⟩

theorem word_append_inj {word word' rest rest' : List Char} (hw : ∀ c ∈ word, isInWord c = true)
    (hw' : ∀ c ∈ word', isInWord c = true) (hr : Stops rest) (hr' : Stops rest')
    (h : word ++ rest = word' ++ rest') : word = word' ∧ rest = rest' := by
  obtain ⟨htake, hdrop⟩ := spanning_word hw hr
  obtain ⟨htake', hdrop'⟩ := spanning_word hw' hr'
  rw [h] at htake hdrop
  exact ⟨htake.symm.trans htake', hdrop.symm.trans hdrop'⟩

theorem quoted_append_inj {text text' rest rest' : List Char} (ht : '"' ∉ text) (ht' : '"' ∉ text')
    (h : text ++ '"' :: rest = text' ++ '"' :: rest') : text = text' ∧ rest = rest' := by
  have hspan : ∀ {text : List Char} (rest : List Char), '"' ∉ text →
      (text ++ '"' :: rest).takeWhile (· != '"') = text := by
    intro text rest hnot
    have hpass : ∀ c ∈ text, (c != '"') = true := fun c hc => bne_iff_ne.2 fun he => hnot (he ▸ hc)
    rw [List.takeWhile_append_of_pos hpass]
    exact List.append_nil _
  have htext : text = text' := by
    rw [← hspan rest ht, h, hspan rest' ht']
  rw [htext] at h
  exact ⟨htext, (List.cons.inj (List.append_cancel_left h)).2⟩

/-- The first character tells a word from the other forms. -/
theorem word_append_ne {word rest text : List Char} (hne : word ≠ [])
    (hw : ∀ c ∈ word, isInWord c = true) {c : Char} (hc : isInWord c = false) :
    word ++ rest ≠ c :: text := by
  obtain ⟨first, others, rfl⟩ := List.exists_cons_of_ne_nil hne
  intro h
  rw [List.cons_append] at h
  obtain ⟨rfl, -⟩ := List.cons.inj h
  rw [hw first List.mem_cons_self] at hc
  cases hc

/-- The text of a form does not begin with a closing parenthesis. -/
theorem chars_append_ne {f : Form} (hf : f.Readable) (rest text : List Char) :
    f.chars ++ rest ≠ ')' :: text := by
  cases f with
  | word w =>
      rw [chars]
      exact word_append_ne hf.1 hf.2 rfl
  | quoted t => exact nofun
  | list items => exact nofun

mutual

-- The first character tells the kinds of forms apart.  Where a form ends is not known beforehand, so the
-- texts behind the two forms may be different ones until they are found to be the same.
/-- **A form is told by its text**, in front of what stops a word. -/
theorem chars_append_inj : ∀ {f g : Form} {rest rest' : List Char}, f.Readable → g.Readable →
    Stops rest → Stops rest' → f.chars ++ rest = g.chars ++ rest' → f = g ∧ rest = rest'
  | .word w, .word w', rest, rest', hf, hg, hr, hr', h => by
      rw [chars, chars] at h
      obtain ⟨hword, hrest⟩ := word_append_inj hf.2 hg.2 hr hr' h
      exact ⟨congrArg word (String.toList_inj.1 hword), hrest⟩
  | .word w, .quoted t, rest, rest', hf, _, _, _, h => by
      rw [chars, chars] at h
      exact absurd h (word_append_ne hf.1 hf.2 rfl)
  | .word w, .list gs, rest, rest', hf, _, _, _, h => by
      rw [chars, chars] at h
      exact absurd h (word_append_ne hf.1 hf.2 rfl)
  | .quoted t, .word w, rest, rest', _, hg, _, _, h => by
      rw [chars, chars] at h
      exact absurd h.symm (word_append_ne hg.1 hg.2 rfl)
  | .quoted t, .quoted t', rest, rest', hf, hg, _, _, h => by
      rw [chars, chars, List.cons_append, List.cons_append, List.append_assoc,
        List.append_assoc] at h
      obtain ⟨htext, hrest⟩ := quoted_append_inj hf hg (List.cons.inj h).2
      exact ⟨congrArg quoted (String.toList_inj.1 htext), hrest⟩
  | .quoted t, .list gs, rest, rest', _, _, _, _, h => by
      rw [chars, chars] at h
      exact absurd (List.cons.inj h).1 (by decide)
  | .list fs, .word w, rest, rest', _, hg, _, _, h => by
      rw [chars, chars] at h
      exact absurd h.symm (word_append_ne hg.1 hg.2 rfl)
  | .list fs, .quoted t, rest, rest', _, _, _, _, h => by
      rw [chars, chars] at h
      exact absurd (List.cons.inj h).1 (by decide)
  | .list fs, .list gs, rest, rest', hf, hg, _, _, h => by
      rw [chars, chars] at h
      obtain ⟨hitems, hrest⟩ := inside_append_inj hf hg (List.cons.inj h).2
      exact ⟨congrArg list hitems, hrest⟩

theorem inside_append_inj : ∀ {fs gs : List Form} {rest rest' : List Char}, AllReadable fs →
    AllReadable gs → inside fs ++ rest = inside gs ++ rest' → fs = gs ∧ rest = rest'
  | [], [], _, _, _, _, h => ⟨rfl, List.append_cancel_left h⟩
  | [], g :: gs, rest, rest', _, hg, h => by
      rw [inside, inside, List.append_assoc] at h
      exact absurd h.symm (chars_append_ne hg.1 _ _)
  | f :: fs, [], rest, rest', hf, _, h => by
      rw [inside, inside, List.append_assoc] at h
      exact absurd h (chars_append_ne hf.1 _ _)
  | f :: fs, g :: gs, rest, rest', hf, hg, h => by
      rw [inside, inside, List.append_assoc, List.append_assoc] at h
      obtain ⟨rfl, hbehind⟩ := chars_append_inj hf.1 hg.1 (stops_behind fs rest)
        (stops_behind gs rest') h
      obtain ⟨rfl, hrest⟩ := behind_append_inj hf.2 hg.2 hbehind
      exact ⟨rfl, hrest⟩

theorem behind_append_inj : ∀ {fs gs : List Form} {rest rest' : List Char}, AllReadable fs →
    AllReadable gs → behind fs ++ rest = behind gs ++ rest' → fs = gs ∧ rest = rest'
  | [], [], _, _, _, _, h => ⟨rfl, List.append_cancel_left h⟩
  | [], g :: gs, _, _, _, _, h => nomatch h
  | f :: fs, [], _, _, _, _, h => nomatch h
  | f :: fs, g :: gs, rest, rest', hf, hg, h => by
      rw [behind, behind, List.cons_append, List.cons_append, List.append_assoc,
        List.append_assoc] at h
      obtain ⟨rfl, hbehind⟩ := chars_append_inj hf.1 hg.1 (stops_behind fs rest)
        (stops_behind gs rest') (List.cons.inj h).2
      obtain ⟨rfl, hrest⟩ := behind_append_inj hf.2 hg.2 hbehind
      exact ⟨rfl, hrest⟩

end

theorem further_inj : ∀ {fs gs : List Form}, AllReadable fs → AllReadable gs →
    further fs = further gs → fs = gs
  | [], [], _, _, _ => rfl
  | [], g :: gs, _, _, h => nomatch h
  | f :: fs, [], _, _, h => nomatch h
  | f :: fs, g :: gs, hf, hg, h => by
      rw [further, further] at h
      obtain ⟨rfl, hfurther⟩ := chars_append_inj hf.1 hg.1 (stops_further fs) (stops_further gs)
        (List.cons.inj h).2
      rw [further_inj hf.2 hg.2 hfurther]

theorem chars_ne_nil {f : Form} (hf : f.Readable) : f.chars ≠ [] := by
  cases f with
  | word w =>
      rw [chars]
      exact hf.1
  | quoted t => exact nofun
  | list items => exact nofun

/-- **Forms on lines of their own are told by their text.** -/
theorem lines_inj {fs gs : List Form} (hf : AllReadable fs) (hg : AllReadable gs)
    (h : lines fs = lines gs) : fs = gs := by
  cases fs with
  | nil =>
      cases gs with
      | nil => rfl
      | cons g gs => exact absurd (List.append_eq_nil_iff.1 h.symm).1 (chars_ne_nil hg.1)
  | cons f fs =>
      cases gs with
      | nil => exact absurd (List.append_eq_nil_iff.1 h).1 (chars_ne_nil hf.1)
      | cons g gs =>
          obtain ⟨rfl, hfurther⟩ := chars_append_inj hf.1 hg.1 (stops_further fs) (stops_further gs) h
          rw [further_inj hf.2 hg.2 hfurther]

end Form

end LoxLang
