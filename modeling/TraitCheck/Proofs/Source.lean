import Mathlib.Data.String.Basic
import TraitCheck.Source
import TraitCheck.Yaml.Cursor
import TraitCheck.Yaml.Node

/-! Places in files. A place in a text is a line and a column in characters, while positions count bytes. A column never
goes further than the bytes of its line, so that a position leads back to its place. -/

namespace TraitCheck

namespace Yaml

/-- The lines of a text without their breaks. A line starts where a character follows. -/
def lines : List Char → List (List Char)
  | [] => []
  | '\r' :: '\n' :: rest => [] :: lines rest
  | c :: rest =>
    if isBreak c then [] :: lines rest
    else
      match lines rest with
      | [] => [[c]]
      | line :: others => (c :: line) :: others

/-- No line is broken but at a line feed, before which a carriage return may stand. -/
def feedsOnly : List Char → Bool
  | [] => true
  | '\r' :: '\n' :: rest => feedsOnly rest
  | c :: rest => (!isBreak c || c = '\n') && feedsOnly rest

lemma lines_feed (rest : List Char) : lines ('\n' :: rest) = [] :: lines rest := by simp [lines, isBreak]

lemma lines_cons {c : Char} (hc : isBreak c = false) (rest : List Char) :
    lines (c :: rest) = (c :: (lines rest).headD []) :: (lines rest).tail := by
  rw [lines]
  · rw [if_neg (by simp [hc])]
    cases lines rest <;> rfl
  · rintro others rfl
    cases hc

lemma lines_ne_nil (c : Char) (rest : List Char) : lines (c :: rest) ≠ [] := by
  rw [lines.eq_def]
  split
  · simp_all
  · simp
  · split
    · simp
    · split <;> simp

/-- A place at a character of a line, or just behind the last one. -/
structure Place.Inside (text : String) (p : Place) : Prop where
  line_pos : 0 < p.line
  column_pos : 0 < p.column
  column_le : ∃ line, (lines text.toList)[p.line - 1]? = some line ∧ p.column ≤ line.length + 1

end Yaml

namespace SourceFile

/-! ### Lines -/

/-- Where lines start and how long they are, each of them before the start of the next one. -/
inductive Laid (stop : Nat) : (starts lengths : List Nat) → Prop
  | nil : Laid stop [] []
  | last {start length : Nat} (h : start + length ≤ stop) : Laid stop [start] [length]
  | cons {start next length : Nat} {starts lengths : List Nat} (h : start + length < next)
      (hrest : Laid stop (next :: starts) lengths) : Laid stop (start :: next :: starts) (length :: lengths)

lemma Laid.start_le {stop start : Nat} {starts lengths : List Nat} (h : Laid stop (start :: starts) lengths) :
    start ≤ stop := by
  generalize hstarts : start :: starts = all at h
  induction h generalizing start starts with
  | nil => cases hstarts
  | last h =>
    obtain ⟨rfl, -⟩ := List.cons.inj hstarts
    omega
  | cons h _ ih =>
    obtain ⟨rfl, -⟩ := List.cons.inj hstarts
    have := ih rfl
    omega

lemma lineStarts_fresh (offset : Nat) (c : Char) (rest : List Char) :
    lineStarts offset true (c :: rest) = offset :: lineStarts offset false (c :: rest) := by
  simp [lineStarts]

lemma Laid.next_line {stop start length offset : Nat} {rest : List Char} (hnext : start + length < offset)
    (hstop : offset ≤ stop) (h : Laid stop (offset :: lineStarts offset false rest)
      ((((Yaml.lines rest).headD []).length + 0) :: (Yaml.lines rest).tail.map List.length)) :
    Laid stop (start :: lineStarts offset true rest) (length :: (Yaml.lines rest).map List.length) := by
  cases rest with
  | nil => exact .last (by omega)
  | cons c rest =>
    obtain ⟨line, others, hlines⟩ := List.exists_cons_of_ne_nil (Yaml.lines_ne_nil c rest)
    rw [hlines] at h ⊢
    rw [lineStarts_fresh]
    exact .cons hnext h

lemma laid_lineStarts {cs : List Char} (h : Yaml.feedsOnly cs = true) {start done offset : Nat} (hdone : start + done ≤ offset) :
    Laid (offset + String.utf8Len cs) (start :: lineStarts offset false cs)
      ((((Yaml.lines cs).headD []).length + done) :: (Yaml.lines cs).tail.map List.length) := by
  -- of the line at hand, `done` characters are behind, and no fewer bytes
  fun_induction Yaml.feedsOnly cs generalizing start done offset with
  | case1 =>
    apply Laid.last
    change start + (0 + done) ≤ offset + 0
    omega
  | case2 rest ih =>
    have hlines : Yaml.lines ('\r' :: '\n' :: rest) = [] :: Yaml.lines rest := by rw [Yaml.lines]
    have hstop : offset + String.utf8Len ('\r' :: '\n' :: rest) = offset + 2 + String.utf8Len rest := by
      simp [Char.utf8Size]
      omega
    have hstarts : lineStarts offset false ('\r' :: '\n' :: rest) = lineStarts (offset + 2) true rest := rfl
    rw [hlines, hstop, hstarts]
    apply Laid.next_line
    · simp
      omega
    · omega
    · exact ih h (Nat.le_refl _)
  | case3 c rest hcr ih =>
    obtain ⟨hc, hrest⟩ := Bool.and_eq_true_iff.mp h
    have hsize := c.utf8Size_pos
    have hstop : offset + String.utf8Len (c :: rest) = offset + c.utf8Size + String.utf8Len rest := by
      simp
      omega
    rw [hstop]
    by_cases hfeed : c = '\n'
    · subst hfeed
      rw [Yaml.lines_feed]
      apply Laid.next_line
      · simp
        omega
      · omega
      · exact ih hrest (Nat.le_refl _)
    · have hbreak : Yaml.isBreak c = false := by simpa [hfeed] using hc
      have hstarts : lineStarts offset false (c :: rest) = lineStarts (offset + c.utf8Size) false rest := by
        simp [lineStarts, hfeed]
      rw [Yaml.lines_cons hbreak, hstarts]
      have hlater : start + (done + 1) ≤ offset + c.utf8Size := by omega
      have hmore := ih hrest hlater
      rwa [Nat.add_comm done, ← Nat.add_assoc] at hmore

lemma Laid.locate_eq {stop k length : Nat} {starts lengths : List Nat} (h : Laid stop starts lengths)
    (hk : lengths[k]? = some length) : ∃ start, starts[k]? = some start ∧ start + length ≤ stop ∧
      (∀ first ∈ starts.head?, first ≤ start) ∧
      ∀ line column, 0 < column → column ≤ length + 1 →
        locate (start + column - 1) line starts = (line + k + 1, column) := by
  induction h generalizing k with
  | nil => simp at hk
  | last h =>
    cases k with
    | zero =>
      obtain rfl := Option.some.inj hk
      refine ⟨_, rfl, h, by simp, fun line column hpos hle => ?_⟩
      rw [locate]
      simp
      omega
    | succ k => simp at hk
  | @cons start next _ starts lengths h hrest ih =>
    cases k with
    | zero =>
      obtain rfl := Option.some.inj hk
      refine ⟨_, rfl, ?_, by simp, fun line column hpos hle => ?_⟩
      · have := hrest.start_le
        omega
      · rw [locate, if_neg (by omega)]
        simp
        omega
    | succ k =>
      obtain ⟨found, hfound, hbound, hfirst, hlocate⟩ := ih hk
      have hnext : next ≤ found := hfirst next rfl
      refine ⟨found, hfound, hbound, by simp; omega, fun line column hpos hle => ?_⟩
      rw [locate, if_pos (by omega), hlocate (line + 1) column hpos hle]
      simp
      omega

lemma laid_text {cs : List Char} (h : Yaml.feedsOnly cs = true) :
    Laid (String.utf8Len cs) (lineStarts 0 true cs) ((Yaml.lines cs).map List.length) := by
  cases cs with
  | nil => exact .nil
  | cons c rest =>
    obtain ⟨line, others, hlines⟩ := List.exists_cons_of_ne_nil (Yaml.lines_ne_nil c rest)
    have hzero : 0 + 0 ≤ 0 := Nat.le_refl 0
    have hlaid := laid_lineStarts h hzero
    rw [hlines, Nat.zero_add] at hlaid
    rw [hlines, lineStarts_fresh]
    exact hlaid

end SourceFile

namespace FileSet

variable {s : FileSet} {f : SourceFile} {p : Int}

lemma position_newFile (s : FileSet) (name : String) {text : String} (h : Yaml.feedsOnly text.toList = true)
    {p : Yaml.Place} (hp : p.Inside text) :
    (s.newFile name text).covers ((s.newFile name text).pos p.line p.column) = true ∧
      (s.newFile name text).position ((s.newFile name text).pos p.line p.column) = ⟨name, p.line, p.column⟩ := by
  obtain ⟨hline, hcolumn, line, hfound, hle⟩ := hp
  have hlength : ((Yaml.lines text.toList).map List.length)[p.line - 1]? = some line.length := by simp [hfound]
  obtain ⟨start, hstart, hstop, -, hlocate⟩ := (SourceFile.laid_text h).locate_eq hlength
  rw [String.utf8Len_toList] at hstop
  have hpos : (s.newFile name text).pos p.line p.column = s.nextBase + (start + p.column - 1 : Nat) := by
    rw [SourceFile.pos, if_neg (by omega)]
    simp only [newFile, hstart]
    omega
  rw [hpos]
  constructor
  · rw [SourceFile.covers, Bool.and_eq_true, decide_eq_true_iff, decide_eq_true_iff]
    simp only [newFile]
    omega
  · have hoffset : min (s.nextBase + (start + p.column - 1 : Nat) - s.nextBase : Int).toNat (text.utf8ByteSize + 1) =
        start + p.column - 1 := by omega
    simp only [SourceFile.position, newFile, hoffset, hlocate 0 p.column hcolumn hle, Nat.zero_add]
    congr
    omega

/-! ### Sets of files -/

/-- Files one behind the other, the first of them behind zero. -/
structure Tiled (s : FileSet) : Prop where
  base_pos : ∀ f ∈ s.files, 0 < f.base
  apart : s.files.Pairwise fun f g => f.base + f.size < g.base

lemma tiled_empty : Tiled {} := ⟨by simp, .nil⟩

lemma Tiled.lt_nextBase (h : s.Tiled) (hf : f ∈ s.files) : f.base + f.size < s.nextBase := by
  obtain ⟨front, last, hfiles⟩ := List.eq_nil_or_concat' s.files |>.resolve_left (List.ne_nil_of_mem hf)
  have hapart := h.apart
  rw [hfiles, List.pairwise_append] at hapart
  have hnext : s.nextBase = last.base + last.size + 1 := by simp [nextBase, hfiles]
  rw [hfiles, List.mem_append, List.mem_singleton] at hf
  obtain hf | rfl := hf
  · have := hapart.2.2 f hf last (by simp)
    omega
  · omega

lemma Tiled.add_newFile (h : s.Tiled) (name text : String) : (s.add (s.newFile name text)).Tiled := by
  have hnext : 0 < s.nextBase := by
    rw [nextBase]
    split <;> omega
  constructor
  · intro f hf
    obtain hf | hf := List.mem_append.mp hf
    · exact h.base_pos f hf
    · obtain rfl := List.mem_singleton.mp hf
      exact hnext
  · apply List.pairwise_append.mpr
    refine ⟨h.apart, List.pairwise_singleton .., fun f hf g hg => ?_⟩
    obtain rfl := List.mem_singleton.mp hg
    exact h.lt_nextBase hf

lemma Tiled.position_eq (h : s.Tiled) (hf : f ∈ s.files) (hp : f.covers p = true) : s.position p = f.position p := by
  have hbase := h.base_pos f hf
  have hcovers : (f.base : Int) ≤ p ∧ p ≤ f.base + f.size := by simpa [SourceFile.covers] using hp
  obtain ⟨front, back, hfiles⟩ := List.append_of_mem hf
  have hfind : s.files.find? (·.covers p) = some f := by
    apply List.find?_eq_some_iff_append.mpr
    refine ⟨hp, front, back, hfiles, fun g hg => ?_⟩
    have hapart := h.apart
    rw [hfiles, List.pairwise_append] at hapart
    have := hapart.2.2 g hg f (by simp)
    simp [SourceFile.covers]
    omega
  rw [position, if_neg (by omega), hfind]

end FileSet

end TraitCheck
