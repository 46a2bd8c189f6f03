import Mathlib.Logic.Function.Basic
import Mathlib.Tactic.Common
import TraitCheck.Path

/-! Paths and their texts. Every text is that of the path that it is read as, and a path without colons in its segments is
read back from its text. -/

namespace TraitCheck.Path

/-! ### Cutting and joining -/

lemma split_ne_nil (cs : List Char) : split cs ≠ [] := by
  fun_cases split cs <;> simp_all

lemma intercalate_split (cs : List Char) : [':', ':'].intercalate (split cs) = cs := by
  fun_induction split cs with
  | case1 => rfl
  | case2 rest ih =>
    obtain ⟨piece, pieces, hsplit⟩ := List.exists_cons_of_ne_nil (split_ne_nil rest)
    rw [hsplit] at ih ⊢
    rw [List.intercalate_cons_cons, ih]
    rfl
  | case3 c rest _ hnil _ => exact absurd hnil (split_ne_nil rest)
  | case4 c rest _ piece pieces hsplit ih =>
    rw [hsplit] at ih
    cases pieces with
    | nil => simpa using ih
    | cons _ _ =>
      rw [List.intercalate_cons_cons] at ih ⊢
      simpa using ih

lemma split_cons {c : Char} (hc : c ≠ ':') {cs piece : List Char} {pieces : List (List Char)} (h : split cs = piece :: pieces) :
    split (c :: cs) = (c :: piece) :: pieces := by
  rw [split]
  · rw [h]
  · intro rest hcolon
    exact absurd hcolon hc

lemma split_of_not_mem {piece : List Char} (h : ':' ∉ piece) : split piece = [piece] := by
  induction piece with
  | nil => rfl
  | cons c piece ih =>
    rw [List.mem_cons, not_or] at h
    exact split_cons (Ne.symm h.1) (ih h.2)

lemma split_append {piece : List Char} (h : ':' ∉ piece) (rest : List Char) :
    split (piece ++ ':' :: ':' :: rest) = piece :: split rest := by
  induction piece with
  | nil => rw [List.nil_append, split]
  | cons c piece ih =>
    rw [List.mem_cons, not_or] at h
    exact split_cons (Ne.symm h.1) (ih h.2)

lemma split_intercalate {pieces : List (List Char)} (hne : pieces ≠ []) (h : ∀ piece ∈ pieces, ':' ∉ piece) :
    split ([':', ':'].intercalate pieces) = pieces := by
  induction pieces with
  | nil => exact absurd rfl hne
  | cons piece pieces ih =>
    obtain ⟨hpiece, hpieces⟩ := List.forall_mem_cons.mp h
    cases pieces with
    | nil => simpa using split_of_not_mem hpiece
    | cons next pieces =>
      have hrest := ih (by simp) hpieces
      rw [List.intercalate_cons_cons, List.append_assoc, List.cons_append, List.cons_append, List.nil_append,
        split_append hpiece, hrest]

/-! ### Texts of paths -/

variable {p q : Path}

lemma segments_ne_nil (h : p ≠ .empty) : p.segments ≠ [] := fun hnil => h (by rw [empty, ← hnil])

lemma toList_render (p : Path) : p.render.toList = [':', ':'].intercalate (p.segments.map String.toList) := by
  rw [render, String.toList_intercalate]
  rfl

lemma render_parse (text : String) : (parse text).render = text := by
  rw [← String.toList_inj, toList_render, parse, List.map_map]
  simp [Function.comp_def, intercalate_split]

lemma parse_injective : Function.Injective parse := Function.LeftInverse.injective render_parse

def Plain (p : Path) : Prop := ∀ s ∈ p.segments, ':' ∉ s.toList

lemma parse_render (hne : p ≠ .empty) (hp : p.Plain) : parse p.render = p := by
  have hsplit : split p.render.toList = p.segments.map String.toList := by
    rw [toList_render]
    apply split_intercalate
    · simpa using segments_ne_nil hne
    · simpa [Plain] using hp
  rw [parse, hsplit, List.map_map]
  simp [Function.comp_def]

lemma render_append (hp : p ≠ .empty) (hq : q ≠ .empty) : (p ++ q).render = p.render ++ separator ++ q.render :=
  String.intercalate_append_of_ne_nil (segments_ne_nil hp) (segments_ne_nil hq)

lemma render_child (hp : p ≠ .empty) (name : String) : (p.child name).render = p.render ++ (separator ++ name) := by
  have happend := render_append hp (show (⟨[name]⟩ : Path) ≠ .empty by simp [empty])
  rw [String.append_assoc] at happend
  exact happend

lemma render_child_inj (hp : p ≠ .empty) (hq : q ≠ .empty) (name : String) :
    (p.child name).render = (q.child name).render ↔ p.render = q.render := by
  rw [render_child hp, render_child hq]
  exact String.append_left_inj _

lemma child_inj {name name' : String} : p.child name = q.child name' ↔ p = q ∧ name = name' := by
  cases p
  cases q
  simp [child]

lemma parent_append_last (hp : p ≠ .empty) : p.parent?.getD .empty ++ ⟨[p.last]⟩ = p := by
  have hne := segments_ne_nil hp
  rw [parent?]
  split_ifs with hshort
  · obtain ⟨s, hs⟩ : ∃ s, p.segments = [s] := by
      apply List.length_eq_one_iff.mp
      have hpos := List.length_pos_iff.mpr hne
      rw [length] at hshort
      omega
    obtain rfl : p = ⟨[s]⟩ := congrArg Path.mk hs
    rfl
  · have hlast : p.segments.dropLast ++ [p.last] = p.segments := by
      rw [last, List.getLastD_eq_getLast?, List.getLast?_eq_some_getLast hne]
      exact List.dropLast_concat_getLast hne
    exact congrArg Path.mk hlast

theorem faithful_keys :
    (∀ text : String, (parse text).render = text) ∧
    (∀ p : Path, p ≠ .empty → p.Plain → parse p.render = p) ∧
    (∀ p q : Path, p ≠ .empty → p.Plain → q ≠ .empty → q.Plain → (p.render = q.render ↔ p = q)) ∧
    (∀ p : Path, p ≠ .empty → p.parent?.getD .empty ++ ⟨[p.last]⟩ = p) ∧
    ∀ p q : Path, p ≠ .empty → q ≠ .empty → (p ++ q).render = p.render ++ separator ++ q.render := by
  refine ⟨render_parse, fun p => parse_render, fun p q hp hplain hq hplain' => ?_, fun p => parent_append_last,
    fun p q => render_append⟩
  constructor
  · intro h
    rw [← parse_render hp hplain, h, parse_render hq hplain']
  · rintro rfl
    rfl

namespace Edges

def between : Path := ⟨["", "size", ""]⟩

def name : Path := ⟨["size"]⟩

theorem between_faithful : between ≠ .empty ∧ between.Plain ∧ name ≠ .empty ∧ name.Plain ∧
    (parse "::size:::").render = "::size:::" ∧ parse between.render = between ∧
    (between.render = name.render ↔ between = name) ∧
    between.parent?.getD .empty ++ ⟨[between.last]⟩ = between ∧
    (between ++ name).render = between.render ++ separator ++ name.render := by
  have hbetween : between ≠ .empty := by decide
  have hplain : between.Plain := by simp [Plain, between]
  have hname : name ≠ .empty := by decide
  have hplain' : name.Plain := by simp [Plain, name]
  obtain ⟨htext, hread, hsame, hparent, hjoined⟩ := faithful_keys
  exact ⟨hbetween, hplain, hname, hplain', htext _, hread _ hbetween hplain, hsame _ _ hbetween hplain hname hplain',
    hparent _ hbetween, hjoined _ _ hbetween hname⟩

end Edges

end TraitCheck.Path
