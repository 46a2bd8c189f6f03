import Mathlib.Data.List.Nodup
import TraitCheck.Check.Pattern
import TraitCheck.Proofs.Action
import TraitCheck.Proofs.Coverage.Branches

/-! What it means that no `match` is reported as leaving values uncovered: some unguarded pattern agrees with every value
along each of its branches. If patterns look into one field of a variant only, one of them matches the value. -/

namespace TraitCheck.Check

open Syntax (Pattern FieldPattern)
open Coverage (Signature Declaration Value Branch Shape Place)

section Patterns

variable (variant? : Nat → Option (TypeDecl × Syntax.Variant))

/-- Patterns that fit a type, with all constructors resolved and no field named twice. -/
inductive WellTyped (sig : Signature) : Pattern → Ty → Prop
  | bind (info : Syntax.Info) (name : String) (t : Ty) : WellTyped sig (.bind info name) t
  | hole (info : Syntax.Info) (t : Ty) : WellTyped sig (.hole info) t
  | literal (info : Syntax.Info) (l : Syntax.Literal) (t : Ty) : WellTyped sig (.literal info l) t
  | variant {info : Syntax.Info} {ident : Syntax.Ident} {fields : List (FieldPattern Pattern)} {t : Ty} {d : TypeDecl}
      {v : Syntax.Variant} {decl : Declaration} (hv : variant? info.id = some (d, v)) (hd : sig t = some decl)
      (hshape : decl.shape = ⟨d.node.info.id, d.node.variants.map (·.name)⟩) (hname : v.name ∈ decl.shape.variants)
      (hfields : (decl.fields v.name).map (·.1) = v.fields.map (·.name)) (honce : (fields.map (·.name)).Nodup)
      (hps : ∀ fp p u, fp ∈ fields → fp.pattern = some p → (decl.fields v.name).lookup fp.name = some u →
        WellTyped sig p u) : WellTyped sig (.variant info ident fields) t

/-- Patterns that fit a type, with all constructors resolved. A field may be named twice. -/
inductive FitsType (sig : Signature) : Pattern → Ty → Prop
  | bind (info : Syntax.Info) (name : String) (t : Ty) : FitsType sig (.bind info name) t
  | hole (info : Syntax.Info) (t : Ty) : FitsType sig (.hole info) t
  | literal (info : Syntax.Info) (l : Syntax.Literal) (t : Ty) : FitsType sig (.literal info l) t
  | variant {info : Syntax.Info} {ident : Syntax.Ident} {fields : List (FieldPattern Pattern)} {t : Ty} {d : TypeDecl}
      {v : Syntax.Variant} {decl : Declaration} (hv : variant? info.id = some (d, v)) (hd : sig t = some decl)
      (hshape : decl.shape = ⟨d.node.info.id, d.node.variants.map (·.name)⟩) (hname : v.name ∈ decl.shape.variants)
      (hfields : (decl.fields v.name).map (·.1) = v.fields.map (·.name))
      (hps : ∀ fp p u, fp ∈ fields → fp.pattern = some p → (decl.fields v.name).lookup fp.name = some u →
        FitsType sig p u) : FitsType sig (.variant info ident fields) t

/-- Whether a pattern matches a value, given the values that a literal stands for. -/
inductive Matches (literal : Syntax.Literal → Value → Prop) : Pattern → Value → Prop
  | bind (info : Syntax.Info) (name : String) (w : Value) : Matches literal (.bind info name) w
  | hole (info : Syntax.Info) (w : Value) : Matches literal (.hole info) w
  | literal {l : Syntax.Literal} {w : Value} (info : Syntax.Info) (h : literal l w) : Matches literal (.literal info l) w
  | variant {info : Syntax.Info} {ident : Syntax.Ident} {fields : List (FieldPattern Pattern)} {d : TypeDecl}
      {v : Syntax.Variant} {ws : List (String × Value)} (hv : variant? info.id = some (d, v))
      (hps : ∀ fp p w, fp ∈ fields → fp.pattern = some p → ws.lookup fp.name = some w → Matches literal p w) :
      Matches literal (.variant info ident fields) (.variant v.name ws)

/-- Whether a pattern agrees with a value along a branch, whatever literals stand for. -/
inductive Agrees : List String → Pattern → Value → Prop
  | bind (info : Syntax.Info) (name : String) (path : List String) (w : Value) : Agrees path (.bind info name) w
  | hole (info : Syntax.Info) (path : List String) (w : Value) : Agrees path (.hole info) w
  | constant {info : Syntax.Info} {ident : Syntax.Ident} {fields : List (FieldPattern Pattern)} {d : TypeDecl}
      {v : Syntax.Variant} (hv : variant? info.id = some (d, v)) :
      Agrees [] (.variant info ident fields) (.variant v.name [])
  | field {info : Syntax.Info} {ident : Syntax.Ident} {fields : List (FieldPattern Pattern)} {d : TypeDecl}
      {v : Syntax.Variant} {f : String} {path : List String} {ws : List (String × Value)} {w : Value}
      (hv : variant? info.id = some (d, v)) (hw : ws.lookup f = some w)
      (hps : ∀ fp p, fp ∈ fields → fp.name = f → fp.pattern = some p → Agrees path p w) :
      Agrees (f :: path) (.variant info ident fields) (.variant v.name ws)

/-- Patterns that look only into the field that `focus` names for a variant at a place. -/
inductive Focused (focus : Place → String → String) : Place → Pattern → Prop
  | bind (pos : Place) (info : Syntax.Info) (name : String) : Focused focus pos (.bind info name)
  | hole (pos : Place) (info : Syntax.Info) : Focused focus pos (.hole info)
  | literal (pos : Place) (info : Syntax.Info) (l : Syntax.Literal) : Focused focus pos (.literal info l)
  | variant {pos : Place} {info : Syntax.Info} {ident : Syntax.Ident} {fields : List (FieldPattern Pattern)} {d : TypeDecl}
      {v : Syntax.Variant} (hv : variant? info.id = some (d, v))
      (hwild : ∀ fp p, fp ∈ fields → fp.pattern = some p → fp.name ≠ focus pos v.name →
        (∃ i n, p = .bind i n) ∨ ∃ i, p = .hole i)
      (hps : ∀ fp p, fp ∈ fields → fp.pattern = some p → Focused focus ((v.name, fp.name) :: pos) p) :
      Focused focus pos (.variant info ident fields)

variable {variant?}

/-! ### Shapes of patterns -/

def seen (variant? : Nat → Option (TypeDecl × Syntax.Variant)) (fields : List (FieldPattern Pattern)) (f : String) :
    Shape :=
  ((fieldShapes variant? fields).reverse.lookup f).getD .any

lemma mem_fieldShapes {fields : List (FieldPattern Pattern)} {f : String} {q : Shape} :
    (f, q) ∈ fieldShapes variant? fields ↔
      ∃ fp ∈ fields, fp.name = f ∧ q = (fp.pattern.map (shapeOf variant?)).getD .any := by
  induction fields with
  | nil => simp [fieldShapes]
  | cons fp fields ih =>
    obtain ⟨info, name, pattern⟩ := fp
    cases pattern <;> simp [fieldShapes, ih, eq_comm]

lemma seen_mem (variant? : Nat → Option (TypeDecl × Syntax.Variant)) (fields : List (FieldPattern Pattern)) (f : String) :
    (∃ fp p, fp ∈ fields ∧ fp.name = f ∧ fp.pattern = some p ∧ seen variant? fields f = shapeOf variant? p) ∨
      seen variant? fields f = .any := by
  cases hl : (fieldShapes variant? fields).reverse.lookup f with
  | none => exact .inr (by simp [seen, hl])
  | some q =>
    obtain ⟨l₁, l₂, he, -⟩ := List.lookup_eq_some_iff.mp hl
    have hm : (f, q) ∈ fieldShapes variant? fields := by
      rw [← List.mem_reverse, he]
      simp
    obtain ⟨fp, hfp, hf, hq⟩ := mem_fieldShapes.mp hm
    cases hp : fp.pattern with
    | none => exact .inr (by simp [seen, hl, hq, hp])
    | some p => exact .inl ⟨fp, p, hfp, hf, hp, by simp [seen, hl, hq, hp]⟩

lemma seen_cases (variant? : Nat → Option (TypeDecl × Syntax.Variant)) {fields : List (FieldPattern Pattern)}
    (honce : (fields.map (·.name)).Nodup) (f : String) :
    (∃ fp p, fp ∈ fields ∧ fp.name = f ∧ fp.pattern = some p ∧ seen variant? fields f = shapeOf variant? p ∧
      ∀ fp' p', fp' ∈ fields → fp'.name = f → fp'.pattern = some p' → p' = p) ∨
    ((∀ fp p, fp ∈ fields → fp.name = f → fp.pattern ≠ some p) ∧ seen variant? fields f = .any) := by
  have hunique : ∀ fp fp', fp ∈ fields → fp' ∈ fields → fp.name = fp'.name → fp = fp' :=
    fun _ _ h h' he => List.inj_on_of_nodup_map honce h h' he
  cases hl : (fieldShapes variant? fields).reverse.lookup f with
  | none =>
    refine Or.inr ⟨fun fp p hfp hf hp => ?_, by simp [seen, hl]⟩
    rw [List.lookup_eq_none_iff] at hl
    have := hl (f, shapeOf variant? p) (by
      rw [List.mem_reverse, mem_fieldShapes]
      exact ⟨fp, hfp, hf, by simp [hp]⟩)
    simp at this
  | some q =>
    obtain ⟨l₁, l₂, he, -⟩ := List.lookup_eq_some_iff.mp hl
    have hm : (f, q) ∈ fieldShapes variant? fields := by
      rw [← List.mem_reverse, he]
      simp
    obtain ⟨fp, hfp, hf, hq⟩ := mem_fieldShapes.mp hm
    cases hp : fp.pattern with
    | none =>
      refine Or.inr ⟨fun fp' p hfp' hf' hp' => ?_, by simp [seen, hl, hq, hp]⟩
      rw [hunique fp' fp hfp' hfp (hf'.trans hf.symm), hp] at hp'
      cases hp'
    | some p =>
      refine Or.inl ⟨fp, p, hfp, hf, hp, by simp [seen, hl, hq, hp], fun fp' p' hfp' hf' hp' => ?_⟩
      rw [hunique fp' fp hfp' hfp (hf'.trans hf.symm), hp] at hp'
      exact (Option.some.inj hp').symm

variable {info : Syntax.Info} {sig : Signature} {p : Pattern}

lemma shapeOf_variant {d : TypeDecl} {v : Syntax.Variant} (hv : variant? info.id = some (d, v))
    (ident : Syntax.Ident) (fields : List (FieldPattern Pattern)) : shapeOf variant? (.variant info ident fields) =
      .variant ⟨d.node.info.id, d.node.variants.map (·.name)⟩ v.name
        (v.fields.map fun f => (f.name, seen variant? fields f.name)) := by
  simp [shapeOf, hv, seen]

lemma lookup_seen {declared : List Syntax.FieldDef} {f : String} (hf : f ∈ declared.map (·.name))
    (fields : List (FieldPattern Pattern)) :
    (declared.map fun g => (g.name, seen variant? fields g.name)).lookup f = some (seen variant? fields f) := by
  induction declared with
  | nil => simp at hf
  | cons g gs ih =>
    rw [List.map_cons, List.lookup_cons]
    cases hg : f == g.name with
    | true => simp [(beq_iff_eq.mp hg)]
    | false =>
      have hne : f ≠ g.name := by simpa using hg
      exact ih (by simpa [hne] using hf)

lemma WellTyped.fitsType {t : Ty} (h : WellTyped variant? sig p t) : FitsType variant? sig p t := by
  induction h with
  | bind info name t => exact .bind info name t
  | hole info t => exact .hole info t
  | literal info l t => exact .literal info l t
  | variant hv hd hshape hname hfields _ _ ih => exact .variant hv hd hshape hname hfields ih

lemma FitsType.typed {t : Ty} (h : FitsType variant? sig p t) : (shapeOf variant? p).Typed sig t := by
  induction h with
  | bind => simpa only [shapeOf] using .any _
  | hole => simpa only [shapeOf] using .any _
  | literal => simpa only [shapeOf] using .literal _
  | @variant info ident fields t d v decl hv hd hshape hname hfields hps ih =>
    rw [shapeOf_variant hv, ← hshape]
    refine .variant hd hname (by simp [hfields, Function.comp_def]) ?_ ?_
    · intro f q hq
      obtain ⟨g, hg, he⟩ := List.mem_map.mp hq
      cases he
      exact lookup_seen (List.mem_map.mpr ⟨g, hg, rfl⟩) fields
    · intro f q u hq hu
      obtain ⟨g, hg, he⟩ := List.mem_map.mp hq
      cases he
      rcases seen_mem variant? fields g.name with ⟨fp, p, hfp, hf, hp, hseen⟩ | hseen
      · rw [hseen]
        exact ih fp p u hfp hp (hf ▸ hu)
      · rw [hseen]
        exact .any u

lemma shapeOf_typed {t : Ty} (h : WellTyped variant? sig p t) : (shapeOf variant? p).Typed sig t :=
  h.fitsType.typed

lemma Agrees.at_field {ident : Syntax.Ident} {fields : List (FieldPattern Pattern)} {n f : String}
    {path : List String} {ws : List (String × Value)} {w : Value} {fp : FieldPattern Pattern}
    (h : Agrees variant? (f :: path) (.variant info ident fields) (.variant n ws)) (hw : ws.lookup f = some w)
    (hfp : fp ∈ fields) (hf : fp.name = f) (hp : fp.pattern = some p) : Agrees variant? path p w := by
  cases h with
  | field _ hw' hps =>
    obtain rfl := Option.some.inj (hw.symm.trans hw')
    exact hps fp p hfp hf hp

lemma Matches.at_field {literal : Syntax.Literal → Value → Prop} {ident : Syntax.Ident}
    {fields : List (FieldPattern Pattern)} {n : String} {ws : List (String × Value)} {w : Value}
    {fp : FieldPattern Pattern}
    (h : Matches variant? literal (.variant info ident fields) (.variant n ws)) (hfp : fp ∈ fields)
    (hp : fp.pattern = some p) (hw : ws.lookup fp.name = some w) : Matches variant? literal p w := by
  cases h with
  | variant _ hps => exact hps fp p w hfp hp hw

lemma Matches.name_eq {literal : Syntax.Literal → Value → Prop} {ident : Syntax.Ident}
    {fields : List (FieldPattern Pattern)} {n : String} {ws : List (String × Value)} {d : TypeDecl} {v : Syntax.Variant}
    (h : Matches variant? literal (.variant info ident fields) (.variant n ws)) (hv : variant? info.id = some (d, v)) :
    n = v.name := by
  cases h with
  | variant hv' _ => exact congrArg (·.2.name) (Option.some.inj (hv'.symm.trans hv))

lemma agrees_shapeOf {t : Ty} (h : WellTyped variant? sig p t) {w : Value}
    {path : List String} (hw : w.HasType sig t) (hb : Branch w path) :
    (shapeOf variant? p).Agrees path w ↔ Agrees variant? path p w := by
  induction h generalizing w path with
  | bind info name => simpa [shapeOf] using Agrees.bind info name path w
  | hole info => simpa [shapeOf] using Agrees.hole info path w
  | literal info l =>
    refine iff_of_false ?_ (by rintro ⟨⟩)
    cases path <;> simp [shapeOf, Shape.Agrees]
  | @variant info ident fields t d v decl hv hd hshape hname hfields honce hps ih =>
    rw [shapeOf_variant hv, ← hshape]
    cases w with
    | atom i =>
      have := hw decl hd
      simp [this] at hname
    | variant n ws =>
      by_cases hn : n = v.name
      · subst hn
        obtain ⟨-, hws⟩ := hw.declared hd
        cases hb with
        | constant => exact iff_of_true (by simp [Shape.Agrees]) (.constant hv)
        | @field _ f _ w path hf hb =>
          obtain ⟨u, hu, hwu⟩ := hws.lookup hf
          have hdeclared : f ∈ v.fields.map (·.name) := hfields ▸ Coverage.mem_names_of_lookup hu
          have hshape' : (Shape.variant decl.shape v.name
              (v.fields.map fun g => (g.name, seen variant? fields g.name))).Agrees (f :: path) (.variant v.name ws) ↔
              (seen variant? fields f).Agrees path w := by
            simp [Coverage.agrees_field, lookup_seen hdeclared, hf]
          rw [hshape']
          rcases seen_cases variant? honce f with ⟨fp, p, hfp, hname, hp, hseen, hunique⟩ | ⟨hnone, hseen⟩
          · rw [hseen, ih fp p u hfp hp (hname ▸ hu) hwu hb]
            constructor
            · intro ha
              refine .field hv hf fun fp' p' hfp' hname' hp' => ?_
              rw [hunique fp' p' hfp' hname' hp']
              exact ha
            · intro ha
              exact ha.at_field hf hfp hname hp
          · rw [hseen]
            refine iff_of_true (Coverage.agrees_any path w) (.field hv hf fun fp' p' hfp' hname' hp' => ?_)
            exact absurd hp' (hnone fp' p' hfp' hname')
      · refine iff_of_false (Coverage.not_agrees_other hn _ _ _) fun ha => hn ?_
        cases ha with
        | constant hv' => exact congrArg (·.2.name) (Option.some.inj (hv'.symm.trans hv))
        | field hv' => exact congrArg (·.2.name) (Option.some.inj (hv'.symm.trans hv))

lemma matches_of_shapeOf {t : Ty} (h : WellTyped variant? sig p t)
    (literal : Syntax.Literal → Value → Prop) {w : Value} (hw : w.HasType sig t) (hm : (shapeOf variant? p).Matches w) :
    Matches variant? literal p w := by
  induction h generalizing w with
  | bind info name => exact .bind info name w
  | hole info => exact .hole info w
  | literal => cases hm
  | @variant info ident fields t d v decl hv hd hshape hname hfields honce hps ih =>
    rw [shapeOf_variant hv] at hm
    cases w with
    | atom i => cases hm
    | variant n ws =>
      obtain ⟨-, hws⟩ := hw.declared hd
      obtain ⟨hn, hall⟩ : n = v.name ∧ ∀ f q w, (f, q) ∈ v.fields.map (fun g => (g.name, seen variant? fields g.name)) →
          ws.lookup f = some w → q.Matches w := by
        cases hm with
        | variant hall => exact ⟨rfl, hall⟩
      subst hn
      refine .variant hv fun fp p w hfp hp hlookup => ?_
      obtain ⟨u, hu, hwu⟩ := hws.lookup hlookup
      have hmem : fp.name ∈ v.fields.map (·.name) := hfields ▸ Coverage.mem_names_of_lookup hu
      obtain ⟨g, hg, hgn⟩ := List.mem_map.mp hmem
      have hq := hall fp.name (seen variant? fields fp.name) w (List.mem_map.mpr ⟨g, hg, by rw [hgn]⟩) hlookup
      rcases seen_cases variant? honce fp.name with ⟨fp', p', _, _, _, hseen, hunique⟩ | ⟨hnone, -⟩
      · rw [hseen, ← hunique fp p hfp rfl hp] at hq
        exact ih fp p u hfp hp hu hwu hq
      · exact absurd hp (hnone fp p hfp rfl)

lemma focused_shapeOf {focus : Place → String → String} {pos : Place} {t : Ty}
    (h : WellTyped variant? sig p t) (hf : Focused variant? focus pos p) :
    (shapeOf variant? p).Focused focus pos := by
  induction h generalizing pos with
  | bind => simpa [shapeOf] using Shape.Focused.any _
  | hole => simpa [shapeOf] using Shape.Focused.any _
  | literal => simpa [shapeOf] using Shape.Focused.literal _
  | @variant info ident fields t d v decl hv hd hshape hname hfields honce hps ih =>
    rw [shapeOf_variant hv]
    cases hf with
    | variant hv' hwild hps' =>
      cases hv.symm.trans hv'
      refine .variant ?_ ?_
      · intro f q hq hne
        obtain ⟨g, hg, he⟩ := List.mem_map.mp hq
        cases he
        rcases seen_cases variant? honce g.name with ⟨fp, p, hfp, hname, hp, hseen, -⟩ | ⟨-, hseen⟩
        · rw [hseen]
          rcases hwild fp p hfp hp (hname ▸ hne) with ⟨i, n, rfl⟩ | ⟨i, rfl⟩ <;> simp [shapeOf]
        · exact hseen
      · intro f q hq
        obtain ⟨g, hg, he⟩ := List.mem_map.mp hq
        cases he
        rcases seen_cases variant? honce g.name with ⟨fp, p, hfp, hname, hp, hseen, -⟩ | ⟨-, hseen⟩
        · obtain ⟨u, hu⟩ : ∃ u, (decl.fields v.name).lookup g.name = some u := by
            have : g.name ∈ (decl.fields v.name).map (·.1) := hfields ▸ List.mem_map.mpr ⟨g, hg, rfl⟩
            rw [← Option.isSome_iff_exists, List.lookup_isSome_iff]
            simpa using this
          rw [hseen, ← hname]
          exact ih fp p u hfp hp (hname ▸ hu) (hps' fp p hfp hp)
        · rw [hseen]
          exact .any _

end Patterns

/-! ### Reports -/

def coverageClauses (s : State) (clauses : List Syntax.Arm) : List Coverage.Clause :=
  clauses.map fun c => ⟨c.guard.isSome, c.patterns.map (shapeOf fun i => s.variants[i]?)⟩

def Accepts (info : Syntax.Info) (clauses : List Syntax.Arm) (s : State) : Prop :=
  ∀ d ∈ reports (checkCoverage info clauses) s, d.cause ≠ .nonExhaustiveMatch

lemma onlyReports_unreachable (marked : List (Syntax.Arm × Bool)) :
    OnlyReports .unreachablePattern (forIn marked ⟨⟩ fun a _ =>
      if a.2 = true then pure (.yield ⟨⟩)
      else do
        report (a.1.patterns.head?.map (·.info)) .unreachablePattern
        pure (.yield ⟨⟩)) := by
  refine .forIn fun a => ?_
  cases a.2 with
  | true => exact ⟨pure (), .done _, by simp⟩
  | false => exact ⟨_, .report _ _, by simp; rfl⟩

lemma accepts_iff (info : Syntax.Info) (clauses : List Syntax.Arm) (s : State) :
    Accepts info clauses s ↔ (Coverage.check (coverageClauses s clauses)).exhaustive = true := by
  generalize hv : Coverage.check (coverageClauses s clauses) = v
  obtain ⟨new, hrun, hnew⟩ := onlyReports_unreachable (clauses.zip v.reachable) s
  have hcheck : (checkCoverage info clauses).run s =
      (if v.exhaustive then pure () else report (some info) .nonExhaustiveMatch : Check Unit).run
        { s with diagnostics := s.diagnostics ++ new } := by
    subst hv
    rw [checkCoverage, run_get_bind]
    exact run_bind_ok hrun _
  have hquiet : ∀ d ∈ new, d.cause ≠ .nonExhaustiveMatch := fun d hd he => by simpa [he] using hnew d hd
  rw [Accepts, reports, hcheck]
  cases v.exhaustive with
  | true =>
    refine iff_of_true (fun d hd => hquiet d ?_) rfl
    have hdrop : (s.diagnostics ++ new).drop s.diagnostics.length = new := by simp
    exact hdrop ▸ hd
  | false =>
    obtain ⟨d, hreport, hd⟩ := exists_run_report (some info) .nonExhaustiveMatch
      { s with diagnostics := s.diagnostics ++ new }
    refine iff_of_false (fun h => h d ?_ hd) (by simp)
    have hdrop : ((s.diagnostics ++ new) ++ [d]).drop s.diagnostics.length = new ++ [d] := by simp
    rw [if_neg (by simp), hreport, hdrop]
    exact List.mem_concat_self

section Match

variable {sig : Signature} {t : Ty} {s : State} {clauses : List Syntax.Arm}

def SomePattern (clauses : List Syntax.Arm) (P : Pattern → Prop) : Prop :=
  ∃ c ∈ clauses, c.guard = none ∧ ∃ p ∈ c.patterns, P p

lemma coverageClauses_typed (ht : ∀ c ∈ clauses, ∀ p ∈ c.patterns, WellTyped (s.variants[·]?) sig p t) :
    ∀ c ∈ coverageClauses s clauses, ∀ q ∈ c.patterns, q.Typed sig t := by
  intro c hc q hq
  obtain ⟨arm, harm, rfl⟩ := List.mem_map.mp hc
  obtain ⟨p, hp, rfl⟩ := List.mem_map.mp hq
  exact shapeOf_typed (ht arm harm p hp)

lemma agree_coverageClauses (ht : ∀ c ∈ clauses, ∀ p ∈ c.patterns, WellTyped (s.variants[·]?) sig p t) {w : Value}
    {path : List String} (hw : w.HasType sig t) (hb : Branch w path) :
    Coverage.Agree (coverageClauses s clauses) path w ↔ SomePattern clauses (Agrees (s.variants[·]?) path · w) := by
  have hiff : ∀ c ∈ clauses, ∀ p ∈ c.patterns,
      ((shapeOf (s.variants[·]?) p).Agrees path w ↔ Agrees (s.variants[·]?) path p w) :=
    fun c hc p hp => agrees_shapeOf (ht c hc p hp) hw hb
  constructor
  · rintro ⟨_, hmem, hguard, _, hq, ha⟩
    obtain ⟨c, hc, rfl⟩ := List.mem_map.mp hmem
    obtain ⟨p, hp, rfl⟩ := List.mem_map.mp hq
    exact ⟨c, hc, by simpa using hguard, p, hp, (hiff c hc p hp).mp ha⟩
  · rintro ⟨c, hc, hguard, p, hp, ha⟩
    exact ⟨_, List.mem_map.mpr ⟨c, hc, rfl⟩, by simp [hguard], _, List.mem_map.mpr ⟨p, hp, rfl⟩, (hiff c hc p hp).mpr ha⟩

/-- A `match` that is accepted has a pattern without a guard for every value and each of its branches, and nothing else
is needed to be accepted. There is one pattern for the whole value if patterns look into one field at each place. -/
theorem accepts_covers (ht : ∀ c ∈ clauses, ∀ p ∈ c.patterns, WellTyped (s.variants[·]?) sig p t)
    (info : Syntax.Info) :
    (Accepts info clauses s → ∀ w path, w.HasType sig t → Branch w path →
      SomePattern clauses (Agrees (s.variants[·]?) path · w)) ∧
    (Coverage.Inhabited sig → (∀ w path, w.HasType sig t → Branch w path →
      SomePattern clauses (Agrees (s.variants[·]?) path · w)) → Accepts info clauses s) ∧
    (Accepts info clauses s → ∀ focus, (∀ c ∈ clauses, c.guard = none → ∀ p ∈ c.patterns,
      Focused (s.variants[·]?) focus [] p) → ∀ literal w, w.HasType sig t →
      SomePattern clauses (Matches (s.variants[·]?) literal · w)) := by
  have hagree : Accepts info clauses s → ∀ w path, w.HasType sig t → Branch w path →
      SomePattern clauses (Agrees (s.variants[·]?) path · w) := fun ha w path hw hb =>
    (agree_coverageClauses ht hw hb).mp
      (Coverage.agree_of_exhaustive (coverageClauses_typed ht) ((accepts_iff info clauses s).mp ha) hw hb)
  refine ⟨hagree, ?_, ?_⟩
  · intro hi h
    refine (accepts_iff info clauses s).mpr (Coverage.exhaustive_of_agree hi (coverageClauses_typed ht) ?_)
    exact fun w path hw hb => (agree_coverageClauses ht hw hb).mpr (h w path hw hb)
  · intro ha focus hf literal w hw
    let P (q : Shape) : Prop := SomePattern clauses fun p => q = shapeOf (s.variants[·]?) p
    have hP : ∀ q, P q → q.Typed sig t ∧ q.Focused focus [] := by
      rintro _ ⟨c, hc, hguard, p, hp, rfl⟩
      exact ⟨shapeOf_typed (ht c hc p hp), focused_shapeOf (ht c hc p hp) (hf c hc hguard p hp)⟩
    have hbranch : ∀ path, Branch w path → ∃ q, P q ∧ q.Agrees path w := by
      intro path hb
      obtain ⟨c, hc, hguard, p, hp, hpa⟩ := hagree ha w path hw hb
      exact ⟨_, ⟨c, hc, hguard, p, hp, rfl⟩, (agrees_shapeOf (ht c hc p hp) hw hb).mpr hpa⟩
    obtain ⟨_, ⟨c, hc, hguard, p, hp, rfl⟩, hm⟩ := Coverage.exists_matches hw hP hbranch
    exact ⟨c, hc, hguard, p, hp, matches_of_shapeOf (ht c hc p hp) literal hw hm⟩

end Match

/-! ### Two flags -/

namespace FlagPair

def flagDecl : TypeDecl :=
  ⟨⟨{ id := 1 }, true, "Flag", [], [⟨{}, "True", []⟩, ⟨{}, "False", []⟩]⟩, ⟨["Flag"]⟩, 0⟩

def pairVariant : Syntax.Variant := ⟨{}, "Pair", [⟨{}, true, "a", none⟩, ⟨{}, true, "b", none⟩]⟩

def pairDecl : TypeDecl := ⟨⟨{ id := 2 }, true, "Pair", [], [pairVariant]⟩, ⟨["Pair"]⟩, 0⟩

def flag : Ty := .named flagDecl.path []

def pair : Ty := .named pairDecl.path []

def sig : Signature
  | .named p _ =>
    if p = flagDecl.path then some ⟨⟨1, ["True", "False"]⟩, fun _ => []⟩
    else if p = pairDecl.path then some ⟨⟨2, ["Pair"]⟩, fun _ => [("a", flag), ("b", flag)]⟩
    else none
  | _ => none

def pairValue (a b : String) : Value := .variant "Pair" [("a", .variant a []), ("b", .variant b [])]

def resolved : State :=
  { variants := .ofList
      [(1, pairDecl, pairVariant), (2, flagDecl, ⟨{}, "True", []⟩), (3, flagDecl, ⟨{}, "False", []⟩),
        (4, pairDecl, pairVariant), (5, flagDecl, ⟨{}, "False", []⟩), (6, flagDecl, ⟨{}, "True", []⟩)] }

def node (id : Nat) (fields : List (FieldPattern Pattern)) : Pattern := .variant { id := id } ⟨{}, [], []⟩ fields

def flagField (name : String) (id : Nat) : FieldPattern Pattern := ⟨{}, name, some (node id [])⟩

def clause (p : Pattern) : Syntax.Arm := ⟨{}, [p], none, ⟨{}, []⟩⟩

/-- `Pair(a: True)` and `Pair(a: False)`. -/
def halves : List Syntax.Arm := [clause (node 1 [flagField "a" 2]), clause (node 4 [flagField "a" 5])]

/-- `Pair(a: True, b: False)` and `Pair(a: False, b: True)`. -/
def crossed : List Syntax.Arm :=
  [clause (node 1 [flagField "a" 2, flagField "b" 3]), clause (node 4 [flagField "a" 5, flagField "b" 6])]

lemma resolved_pair : resolved.variants[1]? = some (pairDecl, pairVariant) ∧
    resolved.variants[4]? = some (pairDecl, pairVariant) :=
  ⟨rfl, rfl⟩

lemma resolved_flag : resolved.variants[2]? = some (flagDecl, ⟨{}, "True", []⟩) ∧
    resolved.variants[3]? = some (flagDecl, ⟨{}, "False", []⟩) ∧
    resolved.variants[5]? = some (flagDecl, ⟨{}, "False", []⟩) ∧
    resolved.variants[6]? = some (flagDecl, ⟨{}, "True", []⟩) :=
  ⟨rfl, rfl, rfl, rfl⟩

lemma flagField_typed {id : Nat} {name : String} (h : resolved.variants[id]? = some (flagDecl, ⟨{}, name, []⟩))
    (hn : name ∈ ["True", "False"]) : WellTyped (resolved.variants[·]?) sig (node id []) flag :=
  .variant h rfl rfl hn rfl (by simp) (by simp)

lemma pair_typed {id : Nat} {fields : List (FieldPattern Pattern)}
    (h : resolved.variants[id]? = some (pairDecl, pairVariant)) (honce : (fields.map (·.name)).Nodup)
    (hps : ∀ fp ∈ fields, ∀ p, fp.pattern = some p → WellTyped (resolved.variants[·]?) sig p flag) :
    WellTyped (resolved.variants[·]?) sig (node id fields) pair := by
  refine .variant h rfl rfl (by simp [pairVariant]) rfl honce fun fp p u hfp hp hu => ?_
  obtain rfl : flag = u := by
    simp only [List.lookup_cons, List.lookup_nil] at hu
    split at hu
    · exact Option.some.inj hu
    · split at hu <;> simp_all
  exact hps fp hfp p hp

lemma halves_typed : ∀ c ∈ halves, ∀ p ∈ c.patterns, WellTyped (resolved.variants[·]?) sig p pair := by
  obtain ⟨h₁, h₄⟩ := resolved_pair
  obtain ⟨h₂, -, h₅, -⟩ := resolved_flag
  simpa [halves, clause] using
    ⟨pair_typed h₁ (by simp) (by simpa [flagField] using flagField_typed h₂ (by simp)),
      pair_typed h₄ (by simp) (by simpa [flagField] using flagField_typed h₅ (by simp))⟩

lemma crossed_typed : ∀ c ∈ crossed, ∀ p ∈ c.patterns, WellTyped (resolved.variants[·]?) sig p pair := by
  obtain ⟨h₁, h₄⟩ := resolved_pair
  obtain ⟨h₂, h₃, h₅, h₆⟩ := resolved_flag
  simpa [crossed, clause] using
    ⟨pair_typed h₁ (by simp [flagField])
      (by simpa [flagField] using ⟨flagField_typed h₂ (by simp), flagField_typed h₃ (by simp)⟩),
    pair_typed h₄ (by simp [flagField])
      (by simpa [flagField] using ⟨flagField_typed h₅ (by simp), flagField_typed h₆ (by simp)⟩)⟩

lemma pairValue_typed {a b : String} (ha : a ∈ ["True", "False"]) (hb : b ∈ ["True", "False"]) :
    (pairValue a b).HasType sig pair :=
  .mk rfl (by simp) ⟨rfl, .mk rfl ha trivial, rfl, .mk rfl hb trivial, trivial⟩

lemma halves_accepted : Accepts {} halves resolved := by
  obtain ⟨h₁, h₄⟩ := resolved_pair
  obtain ⟨h₂, -, h₅, -⟩ := resolved_flag
  rw [accepts_iff]
  simp only [coverageClauses, halves, clause, node, flagField, List.map_cons, List.map_nil, shapeOf, fieldShapes,
    h₁, h₂, h₄, h₅]
  decide +kernel

lemma node_focused {id : Nat} {d : TypeDecl} {v : Syntax.Variant}
    (h : resolved.variants[id]? = some (d, v)) (focus : Place → String → String) (pos : Place) :
    Focused (resolved.variants[·]?) focus pos (node id []) :=
  .variant h (by simp) (by simp)

lemma half_focused {id below : Nat} {d : TypeDecl} {v : Syntax.Variant}
    (h : resolved.variants[id]? = some (pairDecl, pairVariant)) (hb : resolved.variants[below]? = some (d, v)) :
    Focused (resolved.variants[·]?) (fun _ _ => "a") [] (node id [flagField "a" below]) := by
  refine .variant h ?_ ?_
  · rintro fp p hfp - hne
    simp_all [flagField]
  · intro fp p hfp hp
    obtain rfl : node below [] = p := by simp_all [flagField]
    exact node_focused hb _ _

theorem halves_matched : (∀ c ∈ halves, ∀ p ∈ c.patterns, WellTyped (resolved.variants[·]?) sig p pair) ∧
    Accepts {} halves resolved ∧
    SomePattern halves (Matches (resolved.variants[·]?) (fun _ _ => False) · (pairValue "False" "True")) := by
  refine ⟨halves_typed, halves_accepted, ?_⟩
  refine (accepts_covers halves_typed {}).2.2 halves_accepted (fun _ _ => "a") ?_ _ _
    (pairValue_typed (by simp) (by simp))
  obtain ⟨h₁, h₄⟩ := resolved_pair
  obtain ⟨h₂, -, h₅, -⟩ := resolved_flag
  simpa [halves, clause] using ⟨half_focused h₁ h₂, half_focused h₄ h₅⟩

lemma not_matches_of_field {id : Nat} {fields : List (FieldPattern Pattern)} {literal : Syntax.Literal → Value → Prop}
    {f : String} {below : Nat} {v : Syntax.Variant} (hf : flagField f below ∈ fields)
    (hb : resolved.variants[below]? = some (flagDecl, v)) (hne : "True" ≠ v.name) (hab : f ∈ ["a", "b"]) :
    ¬ Matches (resolved.variants[·]?) literal (node id fields) (pairValue "True" "True") := by
  intro h
  have hlookup : [("a", Value.variant "True" []), ("b", .variant "True" [])].lookup f = some (.variant "True" []) := by
    rcases List.mem_pair.mp hab with rfl | rfl <;> rfl
  exact hne ((h.at_field hf rfl hlookup).name_eq hb)

/-- The flags are looked at one by one, and each of them is seen as true and as false. -/
theorem crossed_accepted_unmatched :
    (∀ c ∈ crossed, ∀ p ∈ c.patterns, WellTyped (resolved.variants[·]?) sig p pair) ∧
    Accepts {} crossed resolved ∧ (pairValue "True" "True").HasType sig pair ∧
    ∀ literal, ¬ SomePattern crossed (Matches (resolved.variants[·]?) literal · (pairValue "True" "True")) := by
  obtain ⟨h₁, h₄⟩ := resolved_pair
  obtain ⟨h₂, h₃, h₅, h₆⟩ := resolved_flag
  refine ⟨crossed_typed, ?_, pairValue_typed (by simp) (by simp), fun literal => ?_⟩
  · rw [accepts_iff]
    simp only [coverageClauses, crossed, clause, node, flagField, List.map_cons, List.map_nil, shapeOf,
      fieldShapes, h₁, h₂, h₃, h₄, h₅, h₆]
    decide +kernel
  · rintro ⟨c, hc, -, p, hp, hm⟩
    rcases List.mem_pair.mp hc with rfl | rfl
    · obtain rfl := List.mem_singleton.mp hp
      exact not_matches_of_field (f := "b") (by simp) h₃ (by simp) (by simp) hm
    · obtain rfl := List.mem_singleton.mp hp
      exact not_matches_of_field (f := "a") (by simp) h₅ (by simp) (by simp) hm

end FlagPair

end TraitCheck.Check
