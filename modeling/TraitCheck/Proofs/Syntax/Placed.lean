import TraitCheck.Proofs.Source
import TraitCheck.Proofs.Syntax.Decoded

/-! Positions of trees. The position that a node of a tree is given leads back to the place of the node of the document
that it comes from, whatever files were read before and are read later. -/

namespace TraitCheck.Syntax.Decode

/-- The set of files after more files, given by their names and texts, have been read one after the other. -/
def decodeFiles (files : FileSet) : List (String × String) → FileSet
  | [] => files
  | (name, text) :: more => decodeFiles (decodeFile files name text).2 more

lemma snd_decodeFile (files : FileSet) (name text : String) :
    (decodeFile files name text).2 = files ∨
      (decodeFile files name text).2 = files.add (files.newFile name text) := by
  delta decodeFile
  split
  · exact .inl rfl
  · exact .inl rfl
  · dsimp only
    split <;> exact .inr rfl

lemma decodeFiles_keeps {P : FileSet → Prop}
    (hadd : ∀ files name text, P files → P (files.add (files.newFile name text))) {files : FileSet} (h : P files)
    (more : List (String × String)) : P (decodeFiles files more) := by
  induction more generalizing files with
  | nil => exact h
  | cons f more ih =>
    apply ih
    obtain hsame | hnew := snd_decodeFile files f.1 f.2
    · rwa [hsame]
    · rw [hnew]
      exact hadd files f.1 f.2 h

lemma tiled_decodeFiles {files : FileSet} (h : files.Tiled) (more : List (String × String)) :
    (decodeFiles files more).Tiled :=
  decodeFiles_keeps (fun _ name text h => h.add_newFile name text) h more

lemma mem_decodeFiles {files : FileSet} {f : SourceFile} (h : f ∈ files.files) (more : List (String × String)) :
    f ∈ (decodeFiles files more).files :=
  decodeFiles_keeps (P := fun s => f ∈ s.files) (fun _ _ _ h => List.mem_append_left _ h) h more

lemma position_decodeFiles {files : FileSet} (h : files.Tiled) (name : String) {text : String}
    (hfeeds : Yaml.feedsOnly text.toList = true) (more : List (String × String)) {p : Yaml.Place} (hp : p.Inside text) :
    (decodeFiles (files.add (files.newFile name text)) more).position ((files.newFile name text).pos p.line p.column) =
      ⟨name, p.line, p.column⟩ := by
  obtain ⟨hcovers, hposition⟩ := files.position_newFile name hfeeds hp
  have htiled := tiled_decodeFiles (h.add_newFile name text) more
  have hmem : files.newFile name text ∈ (decodeFiles (files.add (files.newFile name text)) more).files := by
    apply mem_decodeFiles
    exact List.mem_append_right _ (List.mem_singleton_self _)
  rw [htiled.position_eq hmem hcovers, hposition]

/-- Nothing is said of a node whose place is not in the text. -/
theorem positions_lead_back {before : List (String × String)} {name text path : String} {m : Module} {files : FileSet}
    (h : decodeFile (decodeFiles {} before) name text = (.ok (path, m), files))
    (hfeeds : Yaml.feedsOnly text.toList = true) (more : List (String × String)) :
    ∃ doc, Yaml.read text = some (some doc) ∧ m.From (fun info n => n.place.Inside text →
      info.range.stop = info.range.start ∧
        (decodeFiles files more).position info.range.start = ⟨name, n.place.line, n.place.column⟩) doc.root := by
  obtain ⟨doc, hread, rfl, hmodule⟩ := decodeFile_ok h
  refine ⟨doc, hread, (module_yields (fun n hn => ⟨rfl, ?_⟩) _ hmodule).2⟩
  exact position_decodeFiles (tiled_decodeFiles FileSet.tiled_empty before) name hfeeds more hn

namespace Signs

def text : String := "# größer\r\nmodule: 'app::b'\r\nuses: ['zä::€', lib::x]"

def before : List (String × String) := [("a.yaml", "module: 'app::a'"), ("bad.yaml", "]"), ("n.yaml", "[]\n")]

def more : List (String × String) := [("c.yaml", "module: 'app::c'")]

lemma inside_text {column : Nat} (h : 0 < column) (hle : column ≤ 24) : Yaml.Place.Inside text ⟨3, column⟩ := by
  have hline : (Yaml.lines text.toList)[2]? = some "uses: ['zä::€', lib::x]".toList := by decide +kernel
  exact ⟨Nat.succ_pos 2, h, _, hline, hle⟩

theorem uses_placed : Yaml.feedsOnly text.toList = true ∧ ∃ m files,
    decodeFile (decodeFiles {} before) "b.yaml" text = (.ok ("app::b", m), files) ∧
    m.uses.map (fun u => (decodeFiles files more).position u.info.range.start) = [⟨"b.yaml", 3, 8⟩, ⟨"b.yaml", 3, 17⟩] := by
  have hfeeds : Yaml.feedsOnly text.toList = true := by decide +kernel
  have hpath : (decodeFile (decodeFiles {} before) "b.yaml" text).1.toOption.map (·.1) = some "app::b" := by
    decide +kernel
  have hplaces : (Yaml.read text).map (Option.map fun doc => (doc.root.items "uses").map (·.place)) =
      some (some [⟨3, 8⟩, ⟨3, 17⟩]) := by decide +kernel
  rcases hdecode : decodeFile (decodeFiles {} before) "b.yaml" text with ⟨e | ⟨path, m⟩, files⟩
  · rw [hdecode] at hpath
    cases hpath
  · rw [hdecode] at hpath
    obtain rfl := Option.some.inj hpath
    refine ⟨hfeeds, m, files, rfl, ?_⟩
    obtain ⟨doc, hread, hfrom⟩ := positions_lead_back hdecode hfeeds more
    rw [hread] at hplaces
    obtain ⟨first, second, hnodes, hfirst, hsecond⟩ : ∃ first second, doc.root.items "uses" = [first, second] ∧
        first.place = ⟨3, 8⟩ ∧ second.place = ⟨3, 17⟩ := by simpa [List.map_eq_cons_iff] using hplaces
    have huses := hfrom.uses
    rw [hnodes] at huses
    generalize m.uses = uses at huses ⊢
    obtain _ | ⟨⟨hu, -⟩, _ | ⟨⟨hv, -⟩, _ | _⟩⟩ := huses
    rw [hfirst] at hu
    rw [hsecond] at hv
    have hu := hu (inside_text (by decide) (by decide))
    have hv := hv (inside_text (by decide) (by decide))
    rw [List.map_cons, List.map_singleton, Use.info, Use.info, hu.2, hv.2]

end Signs

end TraitCheck.Syntax.Decode
