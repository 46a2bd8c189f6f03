import Mathlib.Tactic.Common
import TraitCheck.Project.FileTree

/-! Files in trees, and the texts of their paths. A walk meets every file below a directory under the text of its path, from
which the path can be read off again. -/

namespace TraitCheck

/-! ### Paths -/

namespace Text

lemma pieces_eq_splitOn (sep : Char) (cs : List Char) : pieces sep cs = cs.splitOn sep := by
  induction cs with
  | nil => rfl
  | cons c cs ih =>
    rw [List.splitOn_cons_eq_if_modifyHead, ← ih, pieces]
    simp only [beq_iff_eq]
    split
    · rfl
    · obtain ⟨piece, others, hpieces⟩ := List.exists_cons_of_ne_nil (ih ▸ List.splitOn_ne_nil sep cs)
      rw [hpieces]
      rfl

lemma not_mem_of_mem_pieces {sep : Char} {cs piece : List Char} (h : piece ∈ pieces sep cs) : sep ∉ piece := by
  induction cs generalizing piece with
  | nil => simp_all [pieces]
  | cons c cs ih =>
    rw [pieces] at h
    split at h
    · obtain rfl | h := List.mem_cons.mp h
      · exact List.not_mem_nil
      · exact ih h
    · next hc =>
      obtain ⟨first, others, hpieces⟩ := List.exists_cons_of_ne_nil
        (pieces_eq_splitOn sep cs ▸ List.splitOn_ne_nil sep cs : pieces sep cs ≠ [])
      rw [hpieces] at h ih
      obtain rfl | h := List.mem_cons.mp h
      · simpa [Ne.symm hc] using ih (List.mem_cons_self)
      · exact ih (List.mem_cons_of_mem _ h)

end Text

namespace FilePath

/-- A name that something in a directory can have. -/
structure IsName (s : String) : Prop where
  nonempty : s ≠ ""
  notHere : s ≠ "."
  notAbove : s ≠ ".."
  single : '/' ∉ s.toList

instance (s : String) : Decidable (IsName s) :=
  decidable_of_iff (s ≠ "" ∧ s ≠ "." ∧ s ≠ ".." ∧ '/' ∉ s.toList) ⟨fun h => ⟨h.1, h.2.1, h.2.2.1, h.2.2.2⟩, fun h =>
    ⟨h.nonempty, h.notHere, h.notAbove, h.single⟩⟩

/-- The text of a path from the top of a tree. The top itself is a dot. -/
def text (segments : List String) : String := if segments = [] then "." else "/".intercalate segments

variable {segments segments' : List String} {name : String}

lemma split_intercalate (hne : segments ≠ []) (h : ∀ s ∈ segments, IsName s) :
    Text.split '/' ("/".intercalate segments) = segments := by
  have hpieces : (segments.map String.toList) ≠ [] := by simpa using hne
  rw [Text.split, Text.pieces_eq_splitOn, String.toList_intercalate]
  change ((['/'].intercalate (segments.map String.toList)).splitOn '/').map String.ofList = segments
  rw [List.splitOn_intercalate '/' (by simpa using fun s hs => (h s hs).single) hpieces]
  simp

lemma intercalate_split (path : String) : "/".intercalate (Text.split '/' path) = path := by
  rw [← String.toList_inj, String.toList_intercalate, Text.split, Text.pieces_eq_splitOn]
  change ['/'].intercalate _ = _
  simp [Function.comp_def, List.intercalate_splitOn]

lemma text_inj (h : ∀ s ∈ segments, IsName s) (h' : ∀ s ∈ segments', IsName s) (heq : text segments = text segments') :
    segments = segments' := by
  have hdot : Text.split '/' "." = ["."] := by decide
  have htop {l : List String} (hl : ∀ s ∈ l, IsName s) (hne : l ≠ []) : "/".intercalate l ≠ "." := by
    intro hl'
    have hsplit := split_intercalate hne hl
    rw [hl', hdot] at hsplit
    exact (hl "." (by simp [← hsplit])).notHere rfl
  unfold text at heq
  split at heq
  · next hnil =>
    split at heq
    · next hnil' => rw [hnil, hnil']
    · next hne' => exact absurd heq.symm (htop h' hne')
  · next hne =>
    split at heq
    · exact absurd heq (htop h hne)
    · next hne' => rw [← split_intercalate hne h, heq, split_intercalate hne' h']

lemma of_segments? {path : String} (h : segments? path = some segments) :
    path = text segments ∧ ∀ s ∈ segments, IsName s := by
  unfold segments? at h
  split at h
  · next hdot =>
    obtain rfl := Option.some.inj h
    exact ⟨hdot, by simp⟩
  · dsimp only at h
    split at h
    · next hdot hparts =>
      obtain rfl := Option.some.inj h
      have hne : Text.split '/' path ≠ [] := by simp [Text.split, Text.pieces_eq_splitOn, List.splitOn_ne_nil]
      rw [text, if_neg hne, intercalate_split]
      refine ⟨rfl, fun s hs => ?_⟩
      have hs' := List.all_eq_true.mp hparts s hs
      simp only [ne_eq, decide_not, Bool.and_eq_true, Bool.not_eq_true', decide_eq_false_iff_not] at hs'
      obtain ⟨piece, hpiece, rfl⟩ := List.mem_map.mp hs
      exact ⟨hs'.1.1, hs'.1.2, hs'.2, by simpa using Text.not_mem_of_mem_pieces hpiece⟩
    · cases h

lemma join_text (h : ∀ s ∈ segments, IsName s) (name : String) :
    FileTree.join (text segments) name = text (segments ++ [name]) := by
  cases segments with
  | nil => simp [FileTree.join, text]
  | cons s segments =>
    have htop : text (s :: segments) ≠ "." := fun hdot => by
      cases text_inj h (by simp) (hdot.trans rfl : _ = text [])
    rw [FileTree.join, if_neg htop, text, if_neg (by simp), text, if_neg (by simp),
      String.intercalate_append_of_ne_nil (by simp) (by simp), String.intercalate_singleton]

end FilePath

/-! ### Trees -/

namespace FileTree

/-- The names in every directory are names, in order. -/
inductive Proper : FileTree → Prop
  | node {text : Option String} {entries : List (String × FileTree)} (hsorted : (entries.map (·.1)).Pairwise (· < ·))
      (hnames : ∀ e ∈ entries, FilePath.IsName e.1) (hbelow : ∀ e ∈ entries, Proper e.2) : Proper (.node text entries)

/-- A file lies at a path below directories. -/
inductive HasFile : FileTree → List String → String → Prop
  | here {text : String} {entries : List (String × FileTree)} : HasFile (.node (some text) entries) [] text
  | inside {entries : List (String × FileTree)} {name text : String} {t : FileTree} {segments : List String}
      (hentry : (name, t) ∈ entries) (hfile : HasFile t segments text) : HasFile (.node none entries) (name :: segments) text

variable {t u : FileTree} {segments rest : List String} {text : String}

lemma Proper.lookup {entries : List (String × FileTree)} {name : String} {u : FileTree}
    (hsorted : (entries.map (·.1)).Pairwise (· < ·)) (h : (name, u) ∈ entries) : entries.lookup name = some u := by
  induction entries with
  | nil => cases h
  | cons e entries ih =>
    rw [List.map_cons, List.pairwise_cons] at hsorted
    rw [List.lookup_cons]
    obtain rfl | h := List.mem_cons.mp h
    · simp
    · have hne : name ≠ e.1 := (String.ne_of_lt (hsorted.1 name (List.mem_map_of_mem h))).symm
      rw [beq_false_of_ne hne]
      exact ih hsorted.2 h

lemma HasFile.isName (ht : t.Proper) (h : t.HasFile segments text) : ∀ s ∈ segments, FilePath.IsName s := by
  induction h with
  | here => simp
  | inside hentry _ ih =>
    cases ht with
    | node _ hnames hbelow => exact List.forall_mem_cons.mpr ⟨hnames _ hentry, ih (hbelow _ hentry)⟩

lemma HasFile.find (ht : t.Proper) (h : t.HasFile segments text) :
    ∃ entries, t.find segments = .tree (.node (some text) entries) := by
  induction h with
  | here => exact ⟨_, rfl⟩
  | inside hentry _ ih =>
    cases ht with
    | node hsorted _ hbelow =>
      rw [FileTree.find, Proper.lookup hsorted hentry]
      exact ih (hbelow _ hentry)

lemma find_cons {s : String} (h : t.find (s :: segments) = .tree u) :
    ∃ text entries v, t = .node text entries ∧ entries.lookup s = some v ∧ v.find segments = .tree u := by
  obtain ⟨text, entries⟩ := t
  rw [FileTree.find] at h
  cases hs : entries.lookup s with
  | none =>
    rw [hs] at h
    dsimp only at h
    split at h <;> cases h
  | some v => exact ⟨text, entries, v, rfl, hs, by rwa [hs] at h⟩

lemma find_append (h : t.find segments = .tree u) : t.find (segments ++ rest) = u.find rest := by
  induction segments generalizing t with
  | nil =>
    obtain rfl := Found.tree.inj h
    rfl
  | cons s segments ih =>
    obtain ⟨text, entries, v, rfl, hs, hv⟩ := find_cons h
    rw [List.cons_append, FileTree.find, hs]
    exact ih hv

lemma Proper.of_find (ht : t.Proper) (hu : t.find segments = .tree u) : u.Proper := by
  induction segments generalizing t with
  | nil => exact Found.tree.inj hu ▸ ht
  | cons s segments ih =>
    obtain ⟨text, entries, v, rfl, hs, hv⟩ := find_cons hu
    obtain ⟨front, back, hentries, -⟩ := List.lookup_eq_some_iff.mp hs
    cases ht with
    | node _ _ hbelow => exact ih (hbelow (s, v) (by simp [hentries])) hv

mutual

lemma mem_files {path file : String} (t : FileTree) :
    (file, text) ∈ t.files path ↔ ∃ segments, t.HasFile segments text ∧ file = segments.foldl join path := by
  obtain ⟨other, entries⟩ := t
  cases other with
  | some other =>
    rw [files, List.mem_singleton, Prod.mk.injEq]
    constructor
    · rintro ⟨rfl, rfl⟩
      exact ⟨[], .here, rfl⟩
    · rintro ⟨segments, hfile, rfl⟩
      cases hfile
      exact ⟨rfl, rfl⟩
  | none =>
    rw [files, mem_filesOf entries]
    constructor
    · rintro ⟨e, he, segments, hfile, rfl⟩
      exact ⟨e.1 :: segments, .inside he hfile, rfl⟩
    · rintro ⟨segments, hfile, rfl⟩
      cases hfile with
      | inside hentry hfile => exact ⟨_, hentry, _, hfile, rfl⟩

lemma mem_filesOf {path file : String} (entries : List (String × FileTree)) :
    (file, text) ∈ filesOf path entries ↔ ∃ e ∈ entries, ∃ segments, e.2.HasFile segments text ∧
      file = segments.foldl join (join path e.1) := by
  cases entries with
  | nil => simp [filesOf]
  | cons e entries =>
    obtain ⟨name, t⟩ := e
    simp [filesOf, mem_files t, mem_filesOf entries]

end

lemma foldl_join_text {base : List String} (hbase : ∀ s ∈ base, FilePath.IsName s) (h : ∀ s ∈ rest, FilePath.IsName s) :
    rest.foldl join (FilePath.text base) = FilePath.text (base ++ rest) := by
  induction rest generalizing base with
  | nil => simp
  | cons s rest ih =>
    obtain ⟨hs, hrest⟩ := List.forall_mem_cons.mp h
    have hbase' : ∀ s' ∈ base ++ [s], FilePath.IsName s' := by simpa [or_imp, forall_and] using ⟨hbase, hs⟩
    rw [List.foldl_cons, FilePath.join_text hbase, ih hbase' hrest, List.append_assoc]
    rfl

/-- The text that is found under the text of a path. -/
def Holds (t : FileTree) (file text : String) : Prop :=
  ∃ segments entries, (∀ s ∈ segments, FilePath.IsName s) ∧ file = FilePath.text segments ∧
    t.find segments = .tree (.node (some text) entries)

lemma Holds.unique {file text' : String} (h : t.Holds file text) (h' : t.Holds file text') : text = text' := by
  obtain ⟨segments, entries, hnames, rfl, hfind⟩ := h
  obtain ⟨segments', entries', hnames', htext, hfind'⟩ := h'
  obtain rfl := FilePath.text_inj hnames hnames' htext
  rw [hfind] at hfind'
  cases hfind'
  rfl

lemma mem_files_text (ht : t.Proper) {base : List String} (hbase : ∀ s ∈ base, FilePath.IsName s) (hu : t.find base = .tree u)
    {file : String} : (file, text) ∈ u.files (FilePath.text base) ↔
      ∃ rest, u.HasFile rest text ∧ file = FilePath.text (base ++ rest) := by
  rw [mem_files]
  refine exists_congr fun rest => and_congr_right fun hfile => ?_
  rw [foldl_join_text hbase (hfile.isName (ht.of_find hu))]

lemma HasFile.holds (ht : t.Proper) {base : List String} (hbase : ∀ s ∈ base, FilePath.IsName s) (hu : t.find base = .tree u)
    (h : u.HasFile rest text) : t.Holds (FilePath.text (base ++ rest)) text := by
  have hproper := ht.of_find hu
  obtain ⟨entries, hfind⟩ := h.find hproper
  refine ⟨base ++ rest, entries, List.forall_mem_append.mpr ⟨hbase, h.isName hproper⟩, rfl, ?_⟩
  rw [find_append hu, hfind]

/-! ### Trees of files -/

variable {name : String} {f : FileTree → FileTree} {entries : List (String × FileTree)}

lemma mem_modifyEntry {e : String × FileTree} (h : e ∈ modifyEntry name f entries) :
    e ∈ entries ∨ e.1 = name ∧ ∃ t, e.2 = f t ∧ (t = empty ∨ (name, t) ∈ entries) := by
  induction entries with
  | nil =>
    obtain rfl := List.mem_singleton.mp h
    exact .inr ⟨rfl, empty, rfl, .inl rfl⟩
  | cons e' entries ih =>
    rw [modifyEntry] at h
    split at h
    · next heq =>
      obtain rfl | h := List.mem_cons.mp h
      · exact .inr ⟨heq.symm, e'.2, rfl, .inr (by simp [heq])⟩
      · exact .inl (List.mem_cons_of_mem _ h)
    · split at h
      · obtain rfl | h := List.mem_cons.mp h
        · exact .inr ⟨rfl, empty, rfl, .inl rfl⟩
        · exact .inl h
      · obtain rfl | h := List.mem_cons.mp h
        · exact .inl List.mem_cons_self
        · refine (ih h).imp (List.mem_cons_of_mem _) fun ⟨hname, u, hu, hmem⟩ => ⟨hname, u, hu, ?_⟩
          exact hmem.imp_right (List.mem_cons_of_mem _)

lemma sorted_modifyEntry (h : (entries.map (·.1)).Pairwise (· < ·)) :
    ((modifyEntry name f entries).map (·.1)).Pairwise (· < ·) := by
  induction entries with
  | nil => simp [modifyEntry]
  | cons e entries ih =>
    obtain ⟨hfirst, hrest⟩ := List.pairwise_cons.mp h
    rw [modifyEntry]
    split
    · exact h
    · next hne =>
      split
      · next hlt =>
        refine List.pairwise_cons.mpr ⟨List.forall_mem_cons.mpr ⟨hlt, fun n hn => ?_⟩, h⟩
        exact String.lt_trans hlt (hfirst n hn)
      · next hlt =>
        refine List.pairwise_cons.mpr ⟨fun n hn => ?_, ih hrest⟩
        obtain ⟨e', he', rfl⟩ := List.mem_map.mp hn
        obtain hmem | ⟨hname, -⟩ := mem_modifyEntry he'
        · exact hfirst _ (List.mem_map_of_mem hmem)
        · rw [hname]
          exact Std.lt_of_le_of_ne (String.not_lt.mp hlt) (Ne.symm hne)

lemma Proper.insert (ht : t.Proper) (h : ∀ s ∈ segments, FilePath.IsName s) : (t.insert text segments).Proper := by
  induction segments generalizing t with
  | nil =>
    cases ht with
    | node hsorted hnames hbelow => exact .node hsorted hnames hbelow
  | cons s segments ih =>
    obtain ⟨hs, hsegments⟩ := List.forall_mem_cons.mp h
    cases ht with
    | node hsorted hnames hbelow =>
      refine .node (sorted_modifyEntry hsorted) (fun e he => ?_) fun e he => ?_
      · obtain hmem | ⟨hname, -⟩ := mem_modifyEntry he
        · exact hnames e hmem
        · exact hname ▸ hs
      · obtain hmem | ⟨-, u, hu, hempty | hmem⟩ := mem_modifyEntry he
        · exact hbelow e hmem
        · exact hu ▸ hempty ▸ ih (.node .nil (by simp) (by simp)) hsegments
        · exact hu ▸ ih (hbelow _ hmem) hsegments

lemma proper_ofFiles {files : List (String × String)} (h : ∀ x ∈ files, ∀ s ∈ Text.split '/' x.1, FilePath.IsName s) :
    (ofFiles files).Proper := by
  have hempty : empty.Proper := .node .nil (by simp) (by simp)
  rw [ofFiles]
  generalize empty = t at hempty
  induction files generalizing t with
  | nil => exact hempty
  | cons x files ih =>
    obtain ⟨hx, hfiles⟩ := List.forall_mem_cons.mp h
    exact ih hfiles _ (hempty.insert hx)

end FileTree

lemma Storage.of_subtree {storage : Storage} {t u : FileTree} {path : String} (h : storage.subtree t path = .ok u) :
    ∃ base, FilePath.segments? path = some base ∧ t.find base = .tree u := by
  unfold Storage.subtree at h
  dsimp only at h
  split at h
  · cases h
  · next base hbase =>
    split at h
    · next hfind => exact ⟨base, hbase, Except.ok.inj h ▸ hfind⟩
    · cases h
    · cases h

end TraitCheck
