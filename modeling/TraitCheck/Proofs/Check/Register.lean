import Mathlib.Data.List.Nodup
import TraitCheck.Proofs.Check.Resolve

/-! Registering the statements of modules. They are registered under the kinds of their definitions; of two definitions
of one kind and name the first one stays. -/

namespace TraitCheck

open Syntax (Form Stmt)

variable {F : Form}

structure Definition.Top (F : Form) (d : Definition) : Prop where
  kind : d.kind ∈ Kind.any
  proper : ∀ e : Setting, e.toForm = F → d.Proper e

structure ModuleEntry.Early (F : Form) (m : ModuleEntry) : Prop where
  statements : ∀ s ∈ m.syn.statements, s.Fits F
  distinct : (m.syn.statements.map (·.info.id)).Nodup
  scope : ∀ x ∈ m.scope.defs, x.2.kind = x.1.1 ∧ x.2.Top F
  self : m.scope.self = none
  defs : ∀ (id : Nat) d, m.defs[id]? = some d → ∀ e : Setting, e.toForm = F → d.Proper e
  defined : ∀ s ∈ m.syn.statements, ∀ d, m.defs[s.info.id]? = some d → d.DefinedBy s

def Syntax.Stmt.isDefinition : Stmt → Bool
  | .ret _ _ | .expr _ _ => false
  | _ => true

structure ModuleEntry.Listed (clean : Prop) (m : ModuleEntry) : Prop where
  impls : ∀ d, Stmt.impl d ∈ m.syn.statements → (m.defs[d.info.id]?).isSome
  all : clean → ∀ s ∈ m.syn.statements, s.isDefinition = true → (m.defs[s.info.id]?).isSome

lemma ModuleEntry.Early.scope_proper {m : ModuleEntry} (h : m.Early F) {e : Setting} (he : e.toForm = F) :
    m.scope.Proper e := by
  refine ⟨fun x hx => ?_, by simp [h.self]⟩
  obtain ⟨hkind, htop⟩ := h.scope x hx
  exact ⟨hkind, htop.proper e he⟩

lemma top_of_topLevel? {id : Nat} {path : Path} {stmt : Stmt} (hstmt : stmt.Fits F) {name : String} {d : Definition}
    (h : Check.topLevel? id path stmt = some (name, d)) : d.Top F ∧ d.DefinedBy stmt := by
  cases stmt with
  | var d =>
    obtain ⟨-, rfl⟩ := Prod.mk.inj (Option.some.inj h)
    refine ⟨⟨by simp [Definition.kind, Kind.any, Kind.values], fun e he => ⟨fun d hd => ?_, by simp⟩⟩, rfl, rfl, rfl⟩
    obtain rfl := Option.some.inj hd
    exact he ▸ hstmt
  | fn d =>
    obtain ⟨-, rfl⟩ := Prod.mk.inj (Option.some.inj h)
    exact ⟨⟨by simp [Definition.kind, Kind.any, Kind.values], fun e he => ⟨he ▸ hstmt, .inr rfl, by simp⟩⟩, rfl⟩
  | trait d =>
    obtain ⟨-, rfl⟩ := Prod.mk.inj (Option.some.inj h)
    exact ⟨⟨by simp [Definition.kind, Kind.any, Kind.types], fun e he => by subst he; exact hstmt⟩, rfl⟩
  | type d =>
    obtain ⟨-, rfl⟩ := Prod.mk.inj (Option.some.inj h)
    exact ⟨⟨by simp [Definition.kind, Kind.any, Kind.types], fun e he => by subst he; exact hstmt.type⟩, rfl⟩
  | impl _ => simp [Check.topLevel?] at h
  | ret _ _ => simp [Check.topLevel?] at h
  | expr _ _ => simp [Check.topLevel?] at h

namespace ModuleEntry

variable {m : ModuleEntry} {id : Nat} {stmt : Stmt}

def addTop (m : ModuleEntry) (node : Nat) (name : String) (d : Definition) : ModuleEntry :=
  if (m.scope.get? d.kind name).isSome then m
  else { m with scope := m.scope.define name d, defs := m.defs.insert node d }

def register (id : Nat) (m : ModuleEntry) (stmt : Stmt) : ModuleEntry :=
  match stmt with
  | .impl d => { m with defs := m.defs.insert d.info.id (.impl ⟨d, id⟩) }
  | _ =>
    match Check.topLevel? id m.path stmt with
    | some (name, d) => m.addTop stmt.info.id name d
    | none => m

lemma addTop_same (m : ModuleEntry) (node : Nat) (name : String) (d : Definition) :
    (m.addTop node name d).syn = m.syn ∧ (m.addTop node name d).phase = m.phase ∧ (m.addTop node name d).path = m.path := by
  rw [addTop]
  split <;> exact ⟨rfl, rfl, rfl⟩

lemma register_same (id : Nat) (m : ModuleEntry) (stmt : Stmt) :
    (m.register id stmt).syn = m.syn ∧ (m.register id stmt).phase = m.phase ∧ (m.register id stmt).path = m.path := by
  rw [register.eq_def]
  split
  · exact ⟨rfl, rfl, rfl⟩
  · split
    · exact addTop_same m _ _ _
    · exact ⟨rfl, rfl, rfl⟩

def redeclared? (id : Nat) (m : ModuleEntry) (stmt : Stmt) : Option String :=
  match Check.topLevel? id m.path stmt with
  | some (name, d) => if (m.scope.get? d.kind name).isSome then some name else none
  | none => none

lemma Early.insert (h : m.Early F) (hmem : stmt ∈ m.syn.statements) {d : Definition}
    (hd : ∀ e : Setting, e.toForm = F → d.Proper e) (hby : d.DefinedBy stmt) :
    (∀ (id : Nat) d', (m.defs.insert stmt.info.id d)[id]? = some d' → ∀ e : Setting, e.toForm = F → d'.Proper e) ∧
      ∀ s ∈ m.syn.statements, ∀ d', (m.defs.insert stmt.info.id d)[s.info.id]? = some d' → d'.DefinedBy s := by
  refine ⟨fun id d' hd' => ?_, fun s hs d' hd' => ?_⟩
  · rw [Std.TreeMap.getElem?_insert] at hd'
    split at hd'
    · exact Option.some.inj hd' ▸ hd
    · exact h.defs id d' hd'
  · rw [Std.TreeMap.getElem?_insert] at hd'
    split at hd'
    · next hid =>
      -- no two statements have the same number
      obtain rfl : stmt = s := List.inj_on_of_nodup_map h.distinct hmem hs (by simpa [Nat.compare_eq_eq] using hid)
      exact Option.some.inj hd' ▸ hby
    · exact h.defined s hs d' hd'

lemma Early.addTop (h : m.Early F) (hmem : stmt ∈ m.syn.statements) (name : String) {d : Definition} (hd : d.Top F)
    (hby : d.DefinedBy stmt) : (m.addTop stmt.info.id name d).Early F := by
  rw [ModuleEntry.addTop]
  split
  · exact h
  · obtain ⟨hdefs, hdefined⟩ := h.insert hmem hd.proper hby
    refine { h with scope := fun x hx => ?_, defs := hdefs, defined := hdefined }
    obtain rfl | hx := List.mem_cons.mp hx
    · exact ⟨rfl, hd⟩
    · exact h.scope x hx

lemma Early.register (h : m.Early F) (hmem : stmt ∈ m.syn.statements) : (m.register id stmt).Early F := by
  have hstmt := h.statements stmt hmem
  rw [ModuleEntry.register.eq_def]
  split
  · obtain ⟨hdefs, hdefined⟩ := h.insert hmem (d := .impl ⟨_, id⟩) (fun e he => by subst he; exact hstmt) rfl
    exact { h with defs := hdefs, defined := hdefined }
  · split
    · next hd =>
      obtain ⟨htop, hby⟩ := top_of_topLevel? hstmt hd
      exact h.addTop hmem _ htop hby
    · exact h

lemma getElem?_addTop (m : ModuleEntry) (node : Nat) (name : String) (d : Definition) {k : Nat} (hk : k ≠ node) :
    (m.addTop node name d).defs[k]? = m.defs[k]? := by
  rw [addTop]
  split
  · rfl
  · rw [Std.TreeMap.getElem?_insert, if_neg (by simpa [Nat.compare_eq_eq] using Ne.symm hk)]

lemma getElem?_register (m : ModuleEntry) (id : Nat) (stmt : Stmt) {k : Nat} (hk : k ≠ stmt.info.id) :
    (m.register id stmt).defs[k]? = m.defs[k]? := by
  rw [register.eq_def]
  split
  · next d =>
    have : d.info.id ≠ k := Ne.symm hk
    rw [Std.TreeMap.getElem?_insert, if_neg (by simpa [Nat.compare_eq_eq] using this)]
  · split
    · exact getElem?_addTop m _ _ _ hk
    · rfl

variable {stmts : List Stmt}

lemma registerAll_same (id : Nat) (m : ModuleEntry) (stmts : List Stmt) :
    (stmts.foldl (register id) m).syn = m.syn ∧ (stmts.foldl (register id) m).phase = m.phase ∧
      (stmts.foldl (register id) m).path = m.path := by
  induction stmts generalizing m with
  | nil => exact ⟨rfl, rfl, rfl⟩
  | cons stmt stmts ih =>
    obtain ⟨hsyn, hphase, hpath⟩ := register_same id m stmt
    obtain ⟨hsyn', hphase', hpath'⟩ := ih (m.register id stmt)
    exact ⟨hsyn'.trans hsyn, hphase'.trans hphase, hpath'.trans hpath⟩

lemma Early.registerAll (h : m.Early F) (hstmts : ∀ s ∈ stmts, s ∈ m.syn.statements) :
    (stmts.foldl (ModuleEntry.register id) m).Early F := by
  induction stmts generalizing m with
  | nil => exact h
  | cons stmt stmts ih =>
    refine ih (h.register (hstmts stmt (by simp))) fun s hs => ?_
    rw [(register_same id m stmt).1]
    exact hstmts s (List.mem_cons_of_mem _ hs)

lemma getElem?_registerAll (m : ModuleEntry) (id : Nat) {k : Nat} (hk : k ∉ stmts.map (·.info.id)) :
    (stmts.foldl (register id) m).defs[k]? = m.defs[k]? := by
  induction stmts generalizing m with
  | nil => rfl
  | cons stmt stmts ih =>
    simp only [List.map_cons, List.mem_cons, not_or] at hk
    rw [List.foldl_cons, ih _ hk.2, getElem?_register m id stmt hk.1]

def redeclarations (id : Nat) : ModuleEntry → List Stmt → List (Syntax.Info × String)
  | _, [] => []
  | m, stmt :: stmts => ((m.redeclared? id stmt).map (stmt.info, ·)).toList ++ redeclarations id (m.register id stmt) stmts

lemma isSome_register (m : ModuleEntry) (id : Nat) (hdefinition : stmt.isDefinition = true)
    (hnew : m.redeclared? id stmt = none) : ((m.register id stmt).defs[stmt.info.id]?).isSome := by
  rw [redeclared?] at hnew
  rw [register.eq_def]
  split
  · next d => simp [Syntax.Stmt.info]
  · next hother =>
    split
    · next name d htop =>
      rw [htop] at hnew
      dsimp only at hnew
      split at hnew
      · cases hnew
      · next hget =>
        rw [addTop, if_neg hget]
        simp
    · next htop => cases stmt <;> simp [Check.topLevel?, Syntax.Stmt.isDefinition] at htop hdefinition hother

lemma redeclared?_impl (m : ModuleEntry) (id : Nat) (d : Syntax.Impl) : m.redeclared? id (.impl d) = none := rfl

lemma listed_registerAll (m : ModuleEntry) (id : Nat) (hnodup : (stmts.map (·.info.id)).Nodup) (hstmt : stmt ∈ stmts)
    (hdefinition : stmt.isDefinition = true) (hnew : (∃ d, stmt = .impl d) ∨ redeclarations id m stmts = []) :
    ((stmts.foldl (register id) m).defs[stmt.info.id]?).isSome := by
  induction stmts generalizing m with
  | nil => simp at hstmt
  | cons first stmts ih =>
    obtain ⟨hnotMem, hnodup⟩ := List.nodup_cons.mp hnodup
    obtain rfl | hstmt := List.mem_cons.mp hstmt
    · rw [List.foldl_cons, getElem?_registerAll _ id hnotMem]
      refine isSome_register m id hdefinition ?_
      obtain ⟨d, rfl⟩ | hnew := hnew
      · exact redeclared?_impl m id d
      · rw [redeclarations, List.append_eq_nil_iff] at hnew
        simpa using hnew.1
    · refine ih _ hnodup hstmt (hnew.imp_right fun hnew => ?_)
      rw [redeclarations, List.append_eq_nil_iff] at hnew
      exact hnew.2

lemma register_with (m : ModuleEntry) (id : Nat) (stmt : Stmt) (phase : Phase) (references : List Path) :
    { m with phase := phase, references := references : ModuleEntry }.register id stmt =
      { m.register id stmt with phase := phase, references := references } := by
  simp only [register, addTop]
  split
  · rfl
  · split
    · split <;> rfl
    · rfl

lemma registerAll_with (m : ModuleEntry) (id : Nat) (stmts : List Stmt) (phase : Phase) (references : List Path) :
    stmts.foldl (register id) { m with phase := phase, references := references } =
      { stmts.foldl (register id) m with phase := phase, references := references } := by
  induction stmts generalizing m with
  | nil => rfl
  | cons stmt stmts ih => rw [List.foldl_cons, List.foldl_cons, register_with, ih]

lemma redeclarations_with (m : ModuleEntry) (id : Nat) (stmts : List Stmt) (phase : Phase) (references : List Path) :
    { m with phase := phase, references := references : ModuleEntry }.redeclarations id stmts =
      m.redeclarations id stmts := by
  induction stmts generalizing m with
  | nil => rfl
  | cons stmt stmts ih =>
    rw [redeclarations, redeclarations, register_with, ih]
    rfl

end ModuleEntry

namespace Check

lemma modify_congr {α : Type} [Inhabited α] {l : List α} {i : Nat} {f g : α → α}
    (h : f ((l[i]?).getD default) = g ((l[i]?).getD default)) : l.modify i f = l.modify i g := by
  apply List.ext_getElem?
  intro j
  simp only [List.getElem?_modify, Option.map_eq_map]
  by_cases hj : i = j
  · subst hj
    cases hl : l[i]? with
    | none => rfl
    | some a =>
      rw [hl] at h
      simpa using h
  · simp [hj]

lemma modify_id {α : Type} (l : List α) (i : Nat) : l.modify i (fun a => a) = l := by
  apply List.ext_getElem?
  intro j
  rw [List.getElem?_modify]
  cases l[j]? <;> simp

lemma getElem?_modify_ne {α : Type} {l : List α} {i j : Nat} (h : i ≠ j) (f : α → α) : (l.modify i f)[j]? = l[j]? := by
  rw [List.getElem?_modify]
  cases l[j]? <;> simp [h]

lemma getElem?_modify_self {α : Type} (l : List α) (i : Nat) (f : α → α) : (l.modify i f)[i]? = (l[i]?).map f := by
  rw [List.getElem?_modify]
  cases l[i]? <;> simp

lemma forall_mem_modify {α : Type} {P : α → Prop} {l : List α} {i : Nat} {f : α → α}
    (hother : ∀ a ∈ l, P a) (hself : ∀ a, l[i]? = some a → P (f a)) : ∀ a ∈ l.modify i f, P a := by
  intro a ha
  obtain ⟨j, hj⟩ := List.mem_iff_getElem?.mp ha
  by_cases h : i = j
  · subst h
    rw [getElem?_modify_self] at hj
    obtain ⟨b, hb, rfl⟩ := Option.map_eq_some_iff.mp hj
    exact hself b hb
  · rw [getElem?_modify_ne h] at hj
    exact hother a (List.mem_of_getElem? hj)

lemma run_modifyEntry {id : Nat} {f g : ModuleEntry → ModuleEntry} {s : State}
    (h : f (s.module id) = g (s.module id)) :
    (modifyEntry id f).run s = (.ok (), { s with modules := s.modules.modify id g }) := by
  rw [← modify_congr h]
  rfl

def reportRedeclared (s : State) (names : List (Syntax.Info × String)) : List Diagnostic :=
  names.map fun (info, name) => diagnosticAt s (some info) (.redeclaration name)

lemma run_register (id : Nat) (stmt : Stmt) (s : State) : (register id stmt).run s = (.ok (), { s with
    modules := s.modules.modify id fun m => m.register id stmt
    diagnostics := s.diagnostics ++ reportRedeclared s
      ((((s.module id).redeclared? id stmt).map (stmt.info, ·)).toList) }) := by
  have hself : ∀ {f : ModuleEntry → ModuleEntry}, f (s.module id) = s.module id →
      s.modules.modify id f = s.modules := by
    intro f hf
    rw [modify_congr (g := fun m => m) hf, modify_id]
  rw [register.eq_def, run_bind_ok (run_entry id s)]
  generalize hm : s.module id = m at hself
  split
  · simp only [ModuleEntry.redeclared?_impl, Option.map_none, Option.toList_none, reportRedeclared, List.map_nil,
      List.append_nil]
    rfl
  · next hother =>
    have hregister : m.register id stmt = match topLevel? id m.path stmt with
        | some (name, d) => m.addTop stmt.info.id name d
        | none => m := by
      rw [ModuleEntry.register.eq_def]
      split
      · next d => exact absurd rfl (hother d)
      · rfl
    split
    · next name d htop =>
      have hredeclared : m.redeclared? id stmt = if (m.scope.get? d.kind name).isSome then some name else none := by
        rw [ModuleEntry.redeclared?, htop]
      rw [htop] at hregister
      rw [hredeclared]
      simp only [ModuleEntry.addTop] at hregister
      split
      · next hdeclared =>
        rw [if_pos hdeclared] at hregister
        rw [hself hregister]
        rfl
      · next hdeclared =>
        rw [if_neg hdeclared] at hregister
        simp only [Option.map_none, Option.toList_none, reportRedeclared, List.map_nil, List.append_nil]
        refine run_modifyEntry ?_
        rw [hm, hregister]
    · next htop =>
      have hredeclared : m.redeclared? id stmt = none := by rw [ModuleEntry.redeclared?, htop]
      rw [htop] at hregister
      rw [hself hregister, hredeclared]
      simp only [Option.map_none, Option.toList_none, reportRedeclared, List.map_nil, List.append_nil]
      rfl

lemma diagnosticAt_congr {s t : State} (hframes : t.frames = s.frames)
    (hpaths : t.modules.map (·.path) = s.modules.map (·.path)) : diagnosticAt t = diagnosticAt s := by
  funext at? cause
  have hpath : ∀ i : Nat, (t.modules[i]?).map (·.path) = (s.modules[i]?).map (·.path) := by
    intro i
    rw [← List.getElem?_map, ← List.getElem?_map, hpaths]
  have hname : ∀ i : Nat, (t.modules[i]?).map (·.path.render) = (s.modules[i]?).map (·.path.render) := by
    intro i
    have := congrArg (Option.map Path.render) (hpath i)
    rwa [Option.map_map, Option.map_map] at this
  rw [diagnosticAt, diagnosticAt, hframes]
  cases s.frames.peek? with
  | none => rfl
  | some f =>
    simp only [Option.bind_some]
    rw [hname]

lemma run_registerAll (id : Nat) (stmts : List Stmt) (s : State) (hid : id < s.modules.length ∨ stmts = []) :
    (stmts.forM (register id)).run s = (.ok (), { s with
      modules := s.modules.modify id fun m => stmts.foldl (ModuleEntry.register id) m
      diagnostics := s.diagnostics ++ reportRedeclared s
        ((s.module id).redeclarations id stmts) }) := by
  induction stmts generalizing s with
  | nil =>
    simp only [List.foldl_nil, modify_id, ModuleEntry.redeclarations, reportRedeclared, List.map_nil, List.append_nil]
    rfl
  | cons stmt stmts ih =>
    have hid : id < s.modules.length := hid.resolve_right (List.cons_ne_nil _ _)
    rw [forM_cons, run_bind_ok (run_register id stmt s), ih _ (.inl (by simpa using hid))]
    have hsame : ∀ ds, reportRedeclared { s with
        modules := s.modules.modify id fun m => m.register id stmt, diagnostics := ds } = reportRedeclared s := by
      intro ds
      let t : State := { s with modules := s.modules.modify id fun m => m.register id stmt, diagnostics := ds }
      have hpaths : t.modules.map (·.path) = s.modules.map (·.path) :=
        map_modify fun m => (ModuleEntry.register_same id m stmt).2.2
      funext names
      rw [reportRedeclared, reportRedeclared, diagnosticAt_congr (s := s) (t := t) rfl hpaths]
    have hmodule : ∀ ds, State.module { s with
        modules := s.modules.modify id fun m => m.register id stmt, diagnostics := ds } id =
          (s.module id).register id stmt := by
      intro ds
      rw [State.module, State.module, getElem?_modify_self, List.getElem?_eq_getElem hid]
      rfl
    rw [hsame, hmodule]
    simp only [List.modify_modify_eq, ModuleEntry.redeclarations, List.append_assoc]
    rw [reportRedeclared, reportRedeclared, reportRedeclared, List.map_append]
    rfl

end Check

end TraitCheck
