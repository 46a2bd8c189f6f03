import TraitCheck.Proofs.Path
import TraitCheck.Proofs.Syntax.Origin
import TraitCheck.Proofs.Syntax.WellFormed
import TraitCheck.Standard

/-! Modules that are read from documents are well formed, whatever stands in the documents, and come from the nodes of the
documents part by part. The modules of the standard package are well formed as well. -/

namespace TraitCheck.Syntax.Decode

variable {α β : Type} {P : α → Prop} {Q : β → Prop}

/-- What is decoded, if anything, is as described. -/
def Yields (P : α → Prop) (x : Result α) : Prop := ∀ a, x = .ok a → P a

namespace Yields

lemma ok {a : α} (h : P a) : Yields P (.ok a) := by
  intro b hb
  obtain rfl := Except.ok.inj hb
  exact h

lemma pure {a : α} (h : P a) : Yields P (Pure.pure a) := ok h

lemma error (e : Error) : Yields P (.error e) := nofun

lemma fail (n : Yaml.Node) (p : Problem) : Yields P (Decode.fail n p) := error _

lemma bind {x : Result α} {f : α → Result β} (hx : Yields P x) (hf : ∀ a, P a → Yields Q (f a)) :
    Yields Q (x >>= f) := by
  cases x with
  | error e => exact error e
  | ok a => exact hf a (hx a rfl)

lemma skip {x : Result α} {f : α → Result β} (hf : ∀ a, Yields Q (f a)) : Yields Q (x >>= f) :=
  bind (P := fun _ => True) (fun _ _ => trivial) fun a _ => hf a

section

variable {W : α → Prop} {F : α → Yaml.Node → Prop} {decode : Yaml.Node → Result α} {n : Yaml.Node}

lemma mapping {g : Fields → Result β} (h : Yields Q (g n.fields)) : Yields Q (Decode.mapping n >>= g) := by
  cases n with
  | mapping => exact h
  | _ => exact error _

lemma field {g : Yaml.Node → Result β} (key : String) (h : ∀ m, n.value? key = some m → Yields Q (g m)) :
    Yields Q (n.fields.required key >>= g) := by
  rw [Fields.required]
  split
  · exact h _ (by assumption)
  · exact error _

variable (h : ∀ m, Yields (fun a => W a ∧ F a m) (decode m))

include h

lemma mapM (l : List Yaml.Node) : Yields (fun as => (∀ a ∈ as, W a) ∧ List.Forall₂ F as l) (l.mapM decode) := by
  induction l with
  | nil => exact pure ⟨by simp, .nil⟩
  | cons b l ih =>
    rw [List.mapM_cons]
    refine (h b).bind fun a ha => ih.bind fun as has => ?_
    exact pure ⟨by simpa using ⟨ha.1, has.1⟩, .cons ha.2 has.2⟩

lemma each (n : Yaml.Node) (key : String) :
    Yields (fun as => (∀ a ∈ as, W a) ∧ List.Forall₂ F as (n.items key)) (Decode.each decode n.fields key) := by
  have hitems : Yields (· = n.items key) (n.fields.seq key) := by
    rw [Fields.seq]
    split <;> rename_i hget
    · exact ok (by simp [Yaml.Node.items, Yaml.Node.value?, hget])
    · exact ok (by simp [Yaml.Node.items, Yaml.Node.value?, hget, Yaml.Node.elements])
    · exact fail _ _
  refine hitems.bind fun l hl => ?_
  rw [hl]
  exact mapM h _

lemma optional (n : Yaml.Node) (key : String) :
    Yields (fun a => (∀ b, a = some b → W b) ∧ Option.Rel F a (n.value? key)) (Decode.optional decode n.fields key) := by
  rw [Decode.optional]
  split <;> rename_i hget
  · refine ok ⟨by simp, ?_⟩
    rw [Yaml.Node.value?, hget]
    exact .none
  · refine (h _).bind fun a ha => pure ⟨by simpa using ha.1, ?_⟩
    rw [Yaml.Node.value?, hget]
    exact .some ha.2

lemma required (n : Yaml.Node) (key : String) {g : α → Result β}
    (hg : ∀ a, W a → Option.Rel F (some a) (n.value? key) → Yields Q (g a)) :
    Yields Q (n.fields.required key >>= fun m => decode m >>= g) := by
  refine field key fun m hm => (h m).bind fun a ha => hg a ha.1 ?_
  rw [hm]
  exact .some ha.2

end

end Yields

lemma forall₂_toList {R : α → β → Prop} {a : Option α} {b : Option β} (h : Option.Rel R a b) :
    List.Forall₂ R a.toList b.toList := by
  cases h with
  | none => exact .nil
  | some h => exact .cons h .nil

lemma splitPath_ne_nil (text : String) : splitPath text ≠ [] := by
  simp [splitPath, Path.parse, Path.split_ne_nil]

section

variable {src : Source} {P : Info → Yaml.Node → Prop} (hP : ∀ n, P (infoOf src n) n)

include hP

lemma genericWith_yields {typeExpr : Yaml.Node → Result TypeExpr}
    (h : ∀ n, Yields (fun t => t.WellFormed ∧ t.From P n) (typeExpr n)) (n : Yaml.Node) :
    Yields (fun g => g.WellFormed ∧ GenericDecl.From P g n) (genericWith src typeExpr n) := by
  rw [genericWith.eq_def]
  split
  · exact .pure ⟨by simp [GenericDecl.WellFormed], .mk (hP _) .nil⟩
  · refine .mapping (.skip fun name => (Yields.each h n "bounds").bind fun bounds hbounds => ?_)
    exact .pure ⟨hbounds.1, .mk (hP n) hbounds.2⟩

lemma typeExpr_yields (fuel : Nat) (n : Yaml.Node) :
    Yields (fun t => t.WellFormed ∧ t.From P n) (typeExpr src fuel n) := by
  induction fuel generalizing n with
  | zero => exact .fail n _
  | succ fuel ih =>
    rw [typeExpr.eq_def]
    simp only
    split
    · refine .pure ?_
      split
      · exact ⟨.hole _, .hole (hP _)⟩
      · exact ⟨.named _ (splitPath_ne_nil _) (by simp), .named (hP _) .nil⟩
    · refine .mapping (.skip fun kind => ?_)
      split
      · refine .skip fun name => (Yields.each ih n "args").bind fun args hargs => ?_
        exact .pure ⟨.named _ (splitPath_ne_nil name) hargs.1, .named (hP n) hargs.2⟩
      · refine (Yields.each (genericWith_yields hP ih) n "generics").bind fun generics hgenerics => ?_
        refine (Yields.each ih n "params").bind fun params hparams => ?_
        refine (Yields.optional ih n "returns").bind fun result hresult => ?_
        exact .pure ⟨.fn _ hgenerics.1 hparams.1 hresult.1, .fn (hP n) hgenerics.2 hparams.2 hresult.2⟩
      · exact .pure ⟨.hole _, .hole (hP n)⟩
      · exact .fail n _

variable (fuel : Nat)

lemma generics_yields (n : Yaml.Node) : Yields (fun gs => (∀ g ∈ gs, GenericDecl.WellFormed g) ∧
    List.Forall₂ (GenericDecl.From P) gs (n.items "generics")) (generics src fuel n.fields) :=
  .each (genericWith_yields hP (typeExpr_yields hP fuel)) n "generics"

lemma param_yields (n : Yaml.Node) : Yields (fun p => p.WellFormed ∧ p.From P n) (param src fuel n) := by
  rw [param.eq_def]
  split
  · exact .pure ⟨by simp [Param.WellFormed], hP _, .none⟩
  · refine .mapping (.skip fun name => (Yields.optional (typeExpr_yields hP fuel) n "type").bind fun t ht => ?_)
    exact .pure ⟨ht.1, hP n, ht.2⟩

omit fuel in
lemma literal_yields (n : Yaml.Node) : Yields (fun l => True ∧ l.From P n) (literal src n) := by
  refine .mapping (.skip fun value => .skip fun kind => ?_)
  split
  iterate 4 exact .pure ⟨trivial, hP n⟩
  · split
    · exact .pure ⟨trivial, hP n⟩
    · exact .fail n _
  · exact .fail n _

lemma pattern_yields (n : Yaml.Node) : Yields (fun p => p.WellFormed ∧ p.From P n) (pattern src fuel n) := by
  induction fuel generalizing n with
  | zero => exact .fail n _
  | succ fuel ih =>
    rw [pattern]
    refine .mapping (.skip fun kind => ?_)
    split
    · exact .skip fun name => .pure ⟨.bind _ name, .bind (hP n)⟩
    · exact .pure ⟨.hole _, .hole (hP n)⟩
    · exact .required (literal_yields hP) n "value" fun l _ hl => .pure ⟨.literal _ l, .literal (hP n) hl⟩
    · refine .field "name" fun name hname => ?_
      have hfields : ∀ m, Yields (fun f : FieldPattern Pattern =>
          (∀ p, f.pattern = some p → p.WellFormed) ∧ f.From P m) (fieldPatternWith src (pattern src fuel) m) := by
        intro m
        refine .mapping (.skip fun name => (Yields.optional ih m "pattern").bind fun p hp => ?_)
        exact .pure ⟨hp.1, .mk (hP m) hp.2⟩
      refine (Yields.each hfields n "fields").bind fun fields hfields => ?_
      refine .pure ⟨.variant _ ⟨splitPath_ne_nil _, by simp⟩ hfields.1, .variant (hP n) ?_ hfields.2⟩
      rw [hname]
      exact .some (hP name)
    · exact .fail n _

lemma variant_yields (n : Yaml.Node) :
    Yields (fun v => (∀ f ∈ v.fields, f.WellFormed) ∧ v.From P n) (variant src fuel n) := by
  have hfields : ∀ m, Yields (fun f => f.WellFormed ∧ f.From P m) (fieldDef src fuel m) := by
    intro m
    refine .mapping (.skip fun pub => .skip fun name => ?_)
    exact .required (typeExpr_yields hP fuel) m "type" fun t ht htype => .pure ⟨⟨t, rfl, ht⟩, hP m, htype⟩
  refine .mapping (.skip fun name => (Yields.each hfields n "fields").bind fun fields hfields => ?_)
  exact .pure ⟨hfields.1, hP n, hfields.2⟩

section

variable {fuel} {expr : Yaml.Node → Result Expr} {stmt : Yaml.Node → Result Stmt}

lemma blockWith_yields (h : ∀ n, Yields (fun s => s.WellFormed ∧ s.From P n) (stmt n)) (n : Yaml.Node) :
    Yields (fun b => Body.WellFormed b ∧ Body.From P b n) (blockWith src stmt n) := by
  rw [blockWith.eq_def]
  split
  · exact (Yields.mapM h _).bind fun ss hss => .pure ⟨hss.1, .mk (hP _) hss.2⟩
  · refine .mapping (.skip fun kind => ?_)
    split
    · exact .error _
    · exact (Yields.each h _ "statements").bind fun ss hss => .pure ⟨hss.1, .mk (hP _) hss.2⟩
  · exact .fail n _

lemma fnWith_yields (h : ∀ n, Yields (fun s => s.WellFormed ∧ s.From P n) (stmt n)) (n : Yaml.Node) :
    Yields (fun f => Fn.WellFormed f ∧ Fn.From P f n) (fnWith src fuel stmt n) := by
  rw [fnWith]
  refine .mapping (.skip fun kind => ?_)
  split
  · exact .error _
  · refine .skip fun pub => .skip fun name => (generics_yields hP fuel n).bind fun gs hgs => ?_
    refine (Yields.each (param_yields hP fuel) n "params").bind fun ps hps => ?_
    refine (Yields.optional (typeExpr_yields hP fuel) n "returns").bind fun result hresult => ?_
    refine (Yields.optional (blockWith_yields hP h) n "body").bind fun body hbody => ?_
    exact .pure ⟨.fn hgs.1 hps.1 hresult.1 hbody.1, .mk (hP n) hgs.2 hps.2 hresult.2 hbody.2⟩

lemma clauseWith_yields (he : ∀ n, Yields (fun e => e.WellFormed ∧ e.From P n) (expr n))
    (hs : ∀ n, Yields (fun s => s.WellFormed ∧ s.From P n) (stmt n)) (n : Yaml.Node) :
    Yields (fun a => a.WellFormed ∧ Arm.From P a n) (clauseWith src fuel expr stmt n) := by
  rw [clauseWith]
  refine .mapping ((Yields.optional he n "guard").bind fun guard hguard => ?_)
  refine .required (blockWith_yields hP hs) n "body" fun body hbody hfrom => ?_
  refine (Yields.each (pattern_yields hP fuel) n "patterns").bind fun several hseveral => ?_
  refine (Yields.optional (pattern_yields hP fuel) n "pattern").bind fun single hsingle => ?_
  have hpatterns := List.rel_append hseveral.2 (forall₂_toList hsingle.2)
  dsimp only
  split
  · exact .error _
  · refine .pure ⟨⟨fun p hp => ?_, hguard.1, hbody⟩, .mk (hP n) hpatterns hguard.2 hfrom⟩
    obtain hp | hp := List.mem_append.mp hp
    · exact hseveral.1 p hp
    · exact hsingle.1 p (Option.mem_toList.mp hp)

end

mutual

lemma expr_yields : (fuel : Nat) → (n : Yaml.Node) →
    Yields (fun e => e.WellFormed ∧ e.From P n) (expr src fuel n)
  | 0, n => by
    rw [expr]
    exact .fail n _
  | fuel + 1, n => by
    have types := typeExpr_yields hP fuel
    have exprs := expr_yields fuel
    have blocks : ∀ n, Yields (fun b => Body.WellFormed b ∧ Body.From P b n) (blockWith src (stmt src fuel) n) :=
      blockWith_yields hP fun n => stmt_yields fuel n
    have h := hP n
    rw [expr]
    refine .mapping (.skip fun kind => ?_)
    split
    · refine .skip fun name => (Yields.each types n "args").bind fun args hargs => ?_
      exact .pure ⟨.ident ⟨splitPath_ne_nil name, hargs.1⟩, .ident ⟨h, hargs.2⟩⟩
    iterate 5 exact (literal_yields hP n).bind fun l hl => .pure ⟨.literal l, .literal hl.2⟩
    · refine .required exprs n "callee" fun callee hw hcallee => ?_
      exact (Yields.each exprs n "args").bind fun args hargs => .pure ⟨.call _ hw hargs.1, .call h hcallee hargs.2⟩
    · refine .required exprs n "receiver" fun receiver hw hreceiver => .skip fun name => ?_
      refine (Yields.each types n "type-args").bind fun types htypes => ?_
      refine (Yields.each exprs n "args").bind fun args hargs => ?_
      exact .pure ⟨.method _ name hw htypes.1 hargs.1, .method h hreceiver htypes.2 hargs.2⟩
    · exact .required exprs n "receiver" fun receiver hw hreceiver => .skip fun name =>
        .pure ⟨.field _ name hw, .field h hreceiver⟩
    · refine .skip fun op => .required exprs n "left" fun left hw hleft => ?_
      exact .required exprs n "right" fun right hw' hright => .pure ⟨.binary _ op hw hw', .binary h hleft hright⟩
    · exact .skip fun op => .required exprs n "operand" fun operand hw hoperand =>
        .pure ⟨.unary _ op hw, .unary h hoperand⟩
    · refine (Yields.each (param_yields hP fuel) n "params").bind fun params hparams => ?_
      refine (Yields.optional types n "returns").bind fun result hresult => ?_
      refine .required blocks n "body" fun body hw hbody => ?_
      exact .pure ⟨.closure hparams.1 hresult.1 hw, .closure h hparams.2 hresult.2 hbody⟩
    · refine .required exprs n "cond" fun test hw htest => .required blocks n "then" fun yes hw' hyes => ?_
      refine (Yields.optional blocks n "else").bind fun no hno => ?_
      exact .pure ⟨.cond _ hw hw' hno.1, .cond h htest hyes hno.2⟩
    · refine .required exprs n "scrutinee" fun scrutinee hw hscrutinee => ?_
      refine (Yields.each (clauseWith_yields hP exprs fun n => stmt_yields fuel n) n "clauses").bind fun cs hcs => ?_
      refine .pure ⟨.switch _ hw ?_ ?_ ?_, .switch h hscrutinee hcs.2⟩
      · exact fun c hc => (hcs.1 c hc).patterns
      · exact fun c hc => (hcs.1 c hc).guard
      · exact fun c hc => (hcs.1 c hc).body
    · exact (Yields.each exprs n "elements").bind fun es hes => .pure ⟨.list _ hes.1, .list h hes.2⟩
    · exact (blocks n).bind fun b hb => .pure ⟨.block hb.1, .block hb.2⟩
    · exact .fail n _

lemma stmt_yields : (fuel : Nat) → (n : Yaml.Node) →
    Yields (fun s => s.WellFormed ∧ s.From P n) (stmt src fuel n)
  | 0, n => by
    rw [stmt]
    exact .fail n _
  | fuel + 1, n => by
    have types := typeExpr_yields hP fuel
    have generics := generics_yields hP fuel n
    have exprs := expr_yields fuel
    have fns : ∀ n, Yields (fun f => Fn.WellFormed f ∧ Fn.From P f n) (fnWith src fuel (stmt src fuel) n) :=
      fnWith_yields hP fun n => stmt_yields fuel n
    have h := hP n
    rw [stmt]
    refine .mapping (.skip fun kind => ?_)
    split
    · refine .skip fun pub => .skip fun name => (Yields.optional types n "type").bind fun type htype => ?_
      refine .required exprs n "value" fun value hw hvalue => ?_
      exact .pure ⟨.var htype.1 hw, .var h htype.2 hvalue⟩
    · exact (fns n).bind fun fn hfn => .pure ⟨hfn.1, .fn hfn.2⟩
    · refine .skip fun pub => .skip fun name => generics.bind fun gs hgs => ?_
      exact (Yields.each fns n "methods").bind fun ms hms => .pure ⟨.trait hgs.1 hms.1, .trait h hgs.2 hms.2⟩
    · refine .skip fun pub => generics.bind fun gs hgs => ?_
      refine (Yields.optional types n "trait").bind fun trait htrait => ?_
      refine .required types n "for" fun forType hw hfor => ?_
      refine (Yields.each fns n "methods").bind fun ms hms => ?_
      exact .pure ⟨.impl hgs.1 htrait.1 ⟨forType, rfl, hw⟩ hms.1, .impl h hgs.2 htrait.2 hfor hms.2⟩
    · refine .skip fun pub => .skip fun name => generics.bind fun gs hgs => ?_
      refine (Yields.each (variant_yields hP fuel) n "variants").bind fun vs hvs => ?_
      exact .pure ⟨.type ⟨hgs.1, hvs.1⟩, .type h hgs.2 hvs.2⟩
    · exact (Yields.optional exprs n "value").bind fun value hvalue => .pure ⟨.ret _ hvalue.1, .ret h hvalue.2⟩
    · exact (exprs n).bind fun e he => .pure ⟨.expr _ he.1, .expr h he.2⟩

end

lemma use_yields (n : Yaml.Node) : Yields (fun u => True ∧ u.From P n) (use src fuel n) := by
  induction fuel generalizing n with
  | zero => exact .fail n _
  | succ fuel ih =>
    rw [use.eq_def]
    simp only
    split
    · split <;> exact .pure ⟨trivial, .mk (hP _) .nil⟩
    · refine .mapping (.skip fun pub => .skip fun path => .skip fun wildcard => ?_)
      exact (Yields.each ih n "nested").bind fun nested hnested => .pure ⟨trivial, .mk (hP n) hnested.2⟩

lemma module_yields :
    Yields (fun m => (∀ s ∈ m.2.statements, s.WellFormed) ∧ m.2.From P src.doc.root) (module src) := by
  rw [module]
  refine .mapping ((Yields.each (use_yields hP _) _ "uses").bind fun uses huses => ?_)
  refine (Yields.each (stmt_yields hP _) _ "statements").bind fun statements hstatements => ?_
  exact .skip fun name => .pure ⟨hstatements.1, hP _, huses.2, hstatements.2⟩

end

lemma decodeFile_ok {files files' : FileSet} {name text path : String} {m : Module}
    (h : decodeFile files name text = (.ok (path, m), files')) :
    ∃ doc, Yaml.read text = some (some doc) ∧ files' = files.add (files.newFile name text) ∧
      module ⟨files.newFile name text, doc⟩ = .ok (path, m) := by
  delta decodeFile at h
  split at h
  · simp at h
  · simp at h
  · rename_i doc hread
    dsimp only at h
    split at h
    · rename_i found hfound
      obtain ⟨hm, hfiles⟩ := Prod.mk.inj h
      rw [Except.ok.inj hm] at hfound
      exact ⟨doc, hread, hfiles.symm, hfound⟩
    · simp at h

lemma decodeFile_wellFormed {files files' : FileSet} {name text path : String} {m : Module}
    (h : decodeFile files name text = (.ok (path, m), files')) : ∀ s ∈ m.statements, s.WellFormed := by
  obtain ⟨doc, -, -, hmodule⟩ := decodeFile_ok h
  exact (module_yields (P := fun _ _ => True) (fun _ => trivial) _ hmodule).1

end TraitCheck.Syntax.Decode

namespace TraitCheck.Standard

open Syntax

lemma ref_wellFormed (path : String) (args : List TypeExpr) :
    (ref path args).WellFormed ↔ ∀ t ∈ args, t.WellFormed := by
  refine ⟨fun h => ?_, fun h => .named _ (Decode.splitPath_ne_nil path) h⟩
  cases h
  assumption

lemma fnType_wellFormed (params : List TypeExpr) (t : TypeExpr) :
    (TypeExpr.fn {} [] params (some t)).WellFormed ↔ (∀ p ∈ params, p.WellFormed) ∧ t.WellFormed := by
  refine ⟨fun h => ?_, fun h => .fn _ (by simp) h.1 (by simpa using h.2)⟩
  cases h with | fn _ _ hparams hresult => exact ⟨hparams, hresult t rfl⟩

lemma ident_wellFormed (path : String) : (ident path).WellFormed := .ident ⟨Decode.splitPath_ne_nil path, by simp⟩

lemma con_wellFormed (path : String) (fields : List String) : (con path fields).WellFormed :=
  .variant _ ⟨Decode.splitPath_ne_nil path, by simp⟩ (by simp)

lemma receiver_wellFormed : receiver.WellFormed := by simp [receiver, Param.WellFormed]

lemma param_wellFormed (name : String) (t : TypeExpr) : (param name t).WellFormed ↔ t.WellFormed := by
  simp [param, Param.WellFormed]

lemma gen_wellFormed (name : String) (bounds : List TypeExpr) :
    (gen name bounds).WellFormed ↔ ∀ t ∈ bounds, t.WellFormed :=
  Iff.rfl

lemma fn_wellFormed (f : Fn) : Fn.WellFormed f ↔ (∀ g ∈ f.generics, g.WellFormed) ∧ (∀ p ∈ f.params, p.WellFormed) ∧
    (∀ t, f.result = some t → t.WellFormed) ∧ ∀ b, f.body = some b → Body.WellFormed b := by
  refine ⟨fun h => ?_, fun h => .fn h.1 h.2.1 h.2.2.1 h.2.2.2⟩
  cases h with | fn hgenerics hparams hresult hbody => exact ⟨hgenerics, hparams, hresult, hbody⟩

lemma operatorMethods_wellFormed (trait : String) : ∀ m ∈ operatorMethods trait, Fn.WellFormed m := by
  rw [operatorMethods.eq_def]
  split <;> simp [fn_wellFormed, binaryMethod, unaryMethod, declared, receiver_wellFormed, param_wellFormed, selfRef,
    boolRef, ref_wellFormed]

lemma trait_wellFormed (name : String) {methods : List Fn} (h : ∀ m ∈ methods, Fn.WellFormed m) :
    (trait name methods).WellFormed :=
  .trait (by simp) h

lemma impl_wellFormed {generics : List GenericDecl} {trait : Option TypeExpr} {t : TypeExpr} {methods : List Fn}
    (hgenerics : ∀ g ∈ generics, g.WellFormed) (htrait : ∀ u, trait = some u → u.WellFormed) (ht : t.WellFormed)
    (hmethods : ∀ m ∈ methods, Fn.WellFormed m) : (impl generics trait t methods).WellFormed :=
  .impl hgenerics htrait ⟨t, rfl, ht⟩ hmethods

lemma type_wellFormed (name : String) {variants : List Variant} {generics : List GenericDecl}
    (hgenerics : ∀ g ∈ generics, g.WellFormed) (hfields : ∀ v ∈ variants, ∀ f ∈ v.fields, f.WellFormed) :
    (type name variants generics).WellFormed :=
  .type ⟨hgenerics, hfields⟩

lemma show_wellFormed : Fn.WellFormed (unaryMethod "show" stringRef) := by
  simp [fn_wellFormed, unaryMethod, declared, receiver_wellFormed, stringRef, ref_wellFormed]

lemma operatorImpls_wellFormed (typeName : String) (traits : List String) :
    ∀ s ∈ operatorImpls typeName traits, s.WellFormed := by
  intro s hs
  obtain hs | hs := List.mem_append.mp hs
  · obtain ⟨t, -, rfl⟩ := List.mem_map.mp hs
    refine impl_wellFormed (by simp) ?_ ?_ (operatorMethods_wellFormed t) <;> simp [ref_wellFormed]
  · obtain rfl := List.mem_singleton.mp hs
    apply impl_wellFormed <;> simp [displayRef, ref_wellFormed, show_wellFormed]

lemma primitive_wellFormed (name : String) (traits : List String) :
    ∀ s ∈ (primitive name traits).statements, s.WellFormed := by
  intro s hs
  obtain rfl | hs := List.mem_cons.mp hs
  · exact type_wellFormed name (by simp) (by simp)
  · exact operatorImpls_wellFormed name traits s hs

lemma listModule_wellFormed : ∀ s ∈ listModule.statements, s.WellFormed := by
  intro s hs
  simp only [listModule, module, List.mem_cons, List.not_mem_nil, or_false] at hs
  obtain rfl | rfl | rfl := hs
  · exact type_wellFormed _ (by simp [gen_wellFormed]) (by simp)
  · apply impl_wellFormed <;> simp [gen_wellFormed, ref_wellFormed, elemRef, intRef, fn_wellFormed, declared,
      receiver_wellFormed, param_wellFormed, fnType_wellFormed]
  · apply impl_wellFormed <;> simp [gen_wellFormed, displayRef, ref_wellFormed, elemRef, show_wellFormed]

lemma arm_wellFormed {p : Pattern} {e : Expr} (hp : p.WellFormed) (he : e.WellFormed) : (arm p e).WellFormed :=
  ⟨by simpa [arm] using hp, by simp [arm], by simpa [arm, Body.WellFormed] using Stmt.WellFormed.expr _ he⟩

lemma switch_wellFormed {e : Expr} {arms : List Arm} (he : e.WellFormed) (h : ∀ a ∈ arms, a.WellFormed) :
    (Expr.switch {} e arms).WellFormed :=
  .switch _ he (fun a ha => (h a ha).patterns) (fun a ha => (h a ha).guard) fun a ha => (h a ha).body

lemma fnOf_wellFormed (name : String) {params : List Param} {t : TypeExpr} {e : Expr}
    (hparams : ∀ p ∈ params, p.WellFormed) (ht : t.WellFormed) (he : e.WellFormed) :
    Fn.WellFormed (fnOf name params t e) :=
  .fn (by simp [fnOf]) hparams (by simpa [fnOf] using ht) (by simpa [fnOf] using Stmt.WellFormed.expr _ he)

lemma optionModule_wellFormed : ∀ s ∈ optionModule.statements, s.WellFormed := by
  have helem : elemRef.WellFormed := by simp [elemRef, ref_wellFormed]
  intro s hs
  simp only [optionModule, module, List.mem_cons, List.not_mem_nil, or_false] at hs
  obtain rfl | rfl := hs
  · exact type_wellFormed _ (by simp [gen_wellFormed]) (by simpa [FieldDef.WellFormed] using helem)
  · refine impl_wellFormed (by simp [gen_wellFormed]) (by simp) (by simpa [ref_wellFormed] using helem) ?_
    simp only [List.mem_cons, List.not_mem_nil, or_false]
    rintro m (rfl | rfl)
    · refine fnOf_wellFormed _ (by simpa [receiver_wellFormed, param_wellFormed] using helem) helem ?_
      refine switch_wellFormed (ident_wellFormed _) ?_
      simpa using ⟨arm_wellFormed (con_wellFormed _ _) (ident_wellFormed _),
        arm_wellFormed (con_wellFormed _ _) (ident_wellFormed _)⟩
    · refine fnOf_wellFormed _ (by simp [receiver_wellFormed]) (by simp [boolRef, ref_wellFormed]) ?_
      refine switch_wellFormed (ident_wellFormed _) ?_
      simpa using ⟨arm_wellFormed (con_wellFormed _ _) (.literal _), arm_wellFormed (.hole _) (.literal _)⟩

lemma operatorModule_wellFormed : ∀ s ∈ operatorModule.statements, s.WellFormed := by
  have hdiffers : Fn.WellFormed (fnOf "ne" [receiver, param "other" selfRef] boolRef
      (.unary {} "!" (.method {} (ident "self") "eq" [] [ident "other"]))) := by
    refine fnOf_wellFormed _ (by simp [receiver_wellFormed, param_wellFormed, selfRef, ref_wellFormed])
      (by simp [boolRef, ref_wellFormed]) (.unary _ _ ?_)
    exact .method _ _ (ident_wellFormed _) (by simp) (by simp [ident_wellFormed])
  intro s hs
  obtain hs | hs := List.mem_append.mp hs
  · obtain ⟨t, -, rfl⟩ := List.mem_map.mp hs
    exact trait_wellFormed t (operatorMethods_wellFormed t)
  · simp only [List.mem_cons, List.not_mem_nil, or_false] at hs
    obtain rfl | rfl := hs
    · refine trait_wellFormed _ fun m hm => ?_
      obtain hm | hm := List.mem_append.mp hm
      · exact operatorMethods_wellFormed _ m hm
      · rwa [List.mem_singleton.mp hm]
    · exact trait_wellFormed _ (operatorMethods_wellFormed _)

lemma outputFn_wellFormed (name : String) : (outputFn name).WellFormed :=
  (fn_wellFormed _).mpr (by simp [declared, gen_wellFormed, displayRef, elemRef, ref_wellFormed, param_wellFormed])

lemma modules_wellFormed : ∀ m ∈ modules, ∀ s ∈ m.2.statements, s.WellFormed := by
  have htype : ∀ name, (type name).WellFormed := fun name => type_wellFormed name (by simp) (by simp)
  intro m hm
  simp only [modules, List.mem_cons, List.not_mem_nil, or_false] at hm
  obtain rfl | rfl | rfl | rfl | rfl | rfl | rfl | rfl | rfl | rfl | rfl | rfl := hm
  iterate 4 exact primitive_wellFormed _ _
  · intro s hs
    obtain rfl | hs := List.mem_cons.mp hs
    · exact type_wellFormed _ (by simp) (by simp)
    · exact operatorImpls_wellFormed _ _ s hs
  iterate 2 simpa [module] using htype _
  · exact listModule_wellFormed
  · exact optionModule_wellFormed
  · exact operatorModule_wellFormed
  · simpa [module] using trait_wellFormed _ (by simpa using show_wellFormed)
  · simpa [module] using ⟨outputFn_wellFormed _, outputFn_wellFormed _⟩

end TraitCheck.Standard
