import TraitCheck.Proofs.Syntax.Shorthand

/-! Documents are read as the same modules, whether they are written in a short way or at length. -/

namespace TraitCheck.Syntax.Decode

open Yaml (Place nullTag boolTag)

section

variable {src src' : Source} {r : Role} {n n' : Yaml.Node}

/-! ### Patterns -/

lemma literal_same (hvalue : ∀ kind, r.part kind "value" = .plain) (h : Opened r n n') :
    Same Literal.bare (literal src n) (literal src' n') := by
  rw [literal, literal]
  refine Both.bind h fun f f' hf => (hf.str (hvalue _)).bind fun value value' hsame => ?_
  subst hsame
  refine hf.kind.bind fun kind kind' hkind => ?_
  obtain ⟨rfl, -⟩ := hkind
  split
  iterate 4 exact .pure rfl
  · split
    · exact .pure rfl
    · exact .fail _ _ _ _
  · exact .fail _ _ _ _

lemma pattern_same (k k' : Nat) (n : Yaml.Node) (hk : depth n ≤ k) (hk' : depth n ≤ k') :
    Same Pattern.bare (pattern src k n) (pattern src' k' n) := by
  induction k generalizing k' n with
  | zero => exact absurd (depth_pos n) (by omega)
  | succ k ih =>
    obtain ⟨k', rfl⟩ : ∃ l, k' = l + 1 := ⟨k' - 1, by have := depth_pos n; omega⟩
    have hpattern : Reads .plain Pattern.bare (depth n) (depth n) (pattern src k) (pattern src' k') := by
      intro p p' hp hdp _
      obtain rfl := hp.eq
      exact ih k' p (by omega) (by omega)
    have hfields : Reads .plain bareFieldPattern (depth n) (depth n) (fieldPatternWith src (pattern src k))
        (fieldPatternWith src' (pattern src' k')) := by
      intro m m' hm hd hd'
      obtain rfl := hm.eq
      rw [fieldPatternWith, fieldPatternWith]
      refine Both.bind (opened_refl .plain m) fun f f' hf => (hf.str rfl).bind fun name name' hname => ?_
      refine (hf.optional (hpattern.mono (Nat.le_of_lt hd) (Nat.le_of_lt hd')) rfl).bind fun p p' hp => .pure ?_
      rw [bareFieldPattern, bareFieldPattern, hname, hp]
    rw [pattern, pattern]
    refine Both.bind (opened_refl .plain n) fun f f' hf => hf.kind.bind fun kind kind' hkind => ?_
    obtain ⟨rfl, -⟩ := hkind
    split
    · exact (hf.str rfl).bind fun name name' hname => .pure (by simp [Pattern.bare, hname])
    · exact .pure rfl
    · refine (hf.required "value").bind fun m m' hm => ?_
      obtain rfl := hm.1.eq
      refine (literal_same (fun _ => rfl) (opened_refl .plain m)).bind fun l l' hl => .pure ?_
      simp [Pattern.bare, hl]
    · refine (hf.required "name").bind fun m m' hm => ?_
      obtain rfl := hm.1.eq
      refine (hf.each (.inr rfl) hfields).bind fun fs fs' hfs => .pure ?_
      simp [Pattern.bare, Ident.bare, hfs]
    · exact .fail _ _ _ _

/-! ### Types -/

lemma genericWith_mapping (src : Source) (read : Yaml.Node → Result TypeExpr) (hn : n.isScalar = false) :
    genericWith src read n =
      (do let f ← mapping n; return ⟨infoOf src n, ← f.str "name", ← each read f "bounds"⟩) := by
  cases n with
  | scalar => cases hn
  | _ => rfl

variable {tag : String} {a b c : Place} {d d' : Nat} {part : String → Role} {f f' : Fields}

lemma genericWith_record (src : Source) (read : Yaml.Node → Result TypeExpr) {text : String}
    (htag : tag ≠ nullTag) (hn : n = .record a [(.word b "name", .scalar c tag text)]) :
    genericWith src read n = .ok ⟨infoOf src n, text, []⟩ := by
  subst hn
  have hnull := isNull_scalar htag c text
  rw [genericWith_mapping src read rfl, mapping_record, ok_bind, str_of_get? (by rw [get?_one, if_pos ⟨rfl, hnull⟩]),
    ok_bind, each_of_get? read (by rw [get?_one, if_neg (by simp)])]
  rfl

lemma generic_same {read read' : Yaml.Node → Result TypeExpr}
    (hread : Reads .type TypeExpr.bare (depth n) (depth n') read read') (h : Near .generic n n') :
    Same GenericDecl.bare (genericWith src read n) (genericWith src' read' n') := by
  have hopened : Opened .generic n n' → n.isScalar = false → n'.isScalar = false →
      Same GenericDecl.bare (genericWith src read n) (genericWith src' read' n') := by
    intro hn hscalar hscalar'
    rw [genericWith_mapping src read hscalar, genericWith_mapping src' read' hscalar']
    refine Both.bind hn fun f f' hf => (hf.str rfl).bind fun name name' hname => ?_
    exact (hf.each (.inl rfl) hread).bind fun bs bs' hbs => .pure (by simp [GenericDecl.bare, hname, hbs])
  rcases h with rfl | h
  · cases n with
    | scalar => exact .pure rfl
    | _ => exact hopened (opened_refl .generic _) rfl rfl
  · cases h with
    | generic htag =>
      rw [genericWith_record src' read' htag rfl]
      exact .pure rfl
    | inside place tag h => exact hopened (opened_inside place tag h) rfl rfl

lemma generics_read {read read' : Yaml.Node → Result TypeExpr} (hread : Reads .type TypeExpr.bare d d' read read') :
    Reads .generic GenericDecl.bare d d' (genericWith src read) (genericWith src' read') := fun _ _ hm hd hd' =>
  generic_same (hread.mono (Nat.le_of_lt hd) (Nat.le_of_lt hd')) hm

lemma typeExpr_mapping (src : Source) (k : Nat) (hn : n.isScalar = false) :
    typeExpr src (k + 1) n = (do
      let f ← mapping n
      let kind ← f.kind
      match kind with
      | "type" => return .named (infoOf src n) (splitPath (← f.str "name")) (← each (typeExpr src k) f "args")
      | "fn-type" =>
        return .fn (infoOf src n) (← each (genericWith src (typeExpr src k)) f "generics")
          (← each (typeExpr src k) f "params") (← optional (typeExpr src k) f "returns")
      | "hole" => return .hole (infoOf src n)
      | _ => fail n (.unknownType kind)) := by
  cases n with
  | scalar => cases hn
  | _ => rfl

lemma typeExpr_hole (src : Source) (k : Nat) (hn : n = .record a [(.word b "kind", .word c "hole")]) :
    typeExpr src (k + 1) n = .ok (.hole (infoOf src n)) := by
  subst hn
  rw [typeExpr_mapping src k rfl, mapping_record, ok_bind, Fields.kind,
    str_of_get? (by rw [get?_one, if_pos ⟨rfl, isNull_word c "hole"⟩]; rfl), ok_bind]
  rfl

lemma typeExpr_named (src : Source) (k : Nat) {text : String} {d e : Place} (htag : tag ≠ nullTag)
    (hn : n = .record a [(.word b "kind", .word c "type"), (.word d "name", .scalar e tag text)]) :
    typeExpr src (k + 1) n = .ok (.named (infoOf src n) (splitPath text) []) := by
  subst hn
  have hnull := isNull_scalar htag e text
  have hkeys : "kind" ≠ "name" := by decide
  rw [typeExpr_mapping src k rfl, mapping_record, ok_bind, Fields.kind,
    str_of_get? (by rw [get?_two _ _ _ _ _ _ hkeys, if_pos ⟨rfl, isNull_word c "type"⟩]; rfl), ok_bind,
    str_of_get? (by rw [get?_two _ _ _ _ _ _ hkeys, if_neg (by simp), if_pos ⟨rfl, hnull⟩]), ok_bind,
    each_of_get? _ (by rw [get?_two _ _ _ _ _ _ hkeys, if_neg (by simp), if_neg (by simp)])]
  rfl

lemma typeExpr_same (k k' : Nat) (n n' : Yaml.Node) (h : Near .type n n') (hk : depth n ≤ k) (hk' : depth n' ≤ k') :
    Same TypeExpr.bare (typeExpr src k n) (typeExpr src' k' n') := by
  induction k generalizing k' n n' with
  | zero => exact absurd (depth_pos n) (by omega)
  | succ k ih =>
    obtain ⟨k', rfl⟩ : ∃ l, k' = l + 1 := ⟨k' - 1, by have := depth_pos n'; omega⟩
    have htypes : Reads .type TypeExpr.bare (depth n) (depth n') (typeExpr src k) (typeExpr src' k') :=
      fun m m' hm hd hd' => ih k' m m' hm (by omega) (by omega)
    have hopened : Opened .type n n' → n.isScalar = false → n'.isScalar = false →
        Same TypeExpr.bare (typeExpr src (k + 1) n) (typeExpr src' (k' + 1) n') := by
      intro hn hscalar hscalar'
      rw [typeExpr_mapping src k hscalar, typeExpr_mapping src' k' hscalar']
      refine Both.bind hn fun f f' hf => hf.kind.bind fun kind kind' hkind => ?_
      obtain ⟨rfl, hkind⟩ := hkind
      rw [hkind] at hf
      split
      · refine (hf.str rfl).bind fun name name' hname => (hf.each (.inl rfl) htypes).bind fun args args' hargs => ?_
        exact .pure (by simp [TypeExpr.bare, hname, hargs])
      · refine (hf.each (.inl rfl) (generics_read htypes)).bind fun gs gs' hgs => ?_
        refine (hf.each (.inl rfl) htypes).bind fun ps ps' hps => ?_
        refine (hf.optional htypes rfl).bind fun result result' hresult => ?_
        exact .pure (by simp [TypeExpr.bare, hgs, hps, hresult])
      · exact .pure rfl
      · exact .fail _ _ _ _
    rcases h with rfl | h
    · cases n with
      | scalar _ _ text =>
        simp only [typeExpr]
        split <;> exact .pure rfl
      | _ => exact hopened (opened_refl .type _) rfl rfl
    · cases h with
      | hole =>
        rw [typeExpr_hole src' k' rfl]
        exact .pure rfl
      | named htag htext =>
        rw [typeExpr_named src' k' htag rfl]
        simp only [typeExpr, htext, if_false]
        exact .pure rfl
      | inside place tag h => exact hopened (opened_inside place tag h) rfl rfl

/-! ### Parts of declarations -/

variable {k k' : Nat}

lemma types_read (hk : d ≤ k + 1) (hk' : d' ≤ k' + 1) :
    Reads .type TypeExpr.bare d d' (typeExpr src k) (typeExpr src' k') := fun m m' hm hd hd' =>
  typeExpr_same k k' m m' hm (by omega) (by omega)

lemma generics_same (h : f.Match part d d' f')
    (hpart : part "generics" = .list .generic) (hk : d ≤ k + 1) (hk' : d' ≤ k' + 1) :
    Same (List.map GenericDecl.bare) (generics src k f) (generics src' k' f') :=
  h.each (.inl hpart) (generics_read (types_read hk hk'))

lemma param_mapping (src : Source) (k : Nat) (hn : n.isScalar = false) :
    param src k n = (do
      let f ← mapping n
      return ⟨infoOf src n, ← f.str "name", ← optional (typeExpr src k) f "type"⟩) := by
  cases n with
  | scalar => cases hn
  | _ => rfl

lemma param_record (src : Source) (k : Nat) {text : String} (htag : tag ≠ nullTag)
    (hn : n = .record a [(.word b "name", .scalar c tag text)]) : param src k n = .ok ⟨infoOf src n, text, none⟩ := by
  subst hn
  have hnull := isNull_scalar htag c text
  rw [param_mapping src k rfl, mapping_record, ok_bind, str_of_get? (by rw [get?_one, if_pos ⟨rfl, hnull⟩]), ok_bind,
    optional_of_get? _ (by rw [get?_one, if_neg (by simp)])]
  rfl

lemma param_same (h : Near .param n n') (hk : depth n ≤ k) (hk' : depth n' ≤ k') :
    Same Param.bare (param src k n) (param src' k' n') := by
  have hopened : Opened .param n n' → n.isScalar = false → n'.isScalar = false →
      Same Param.bare (param src k n) (param src' k' n') := by
    intro hn hscalar hscalar'
    rw [param_mapping src k hscalar, param_mapping src' k' hscalar']
    refine Both.bind hn fun f f' hf => (hf.str rfl).bind fun name name' hname => ?_
    have htypes : Reads .type TypeExpr.bare (depth n) (depth n') (typeExpr src k) (typeExpr src' k') :=
      types_read (Nat.le_succ_of_le hk) (Nat.le_succ_of_le hk')
    exact (hf.optional htypes rfl).bind fun t t' ht => .pure (by simp [Param.bare, hname, ht])
  rcases h with rfl | h
  · cases n with
    | scalar => exact .pure rfl
    | _ => exact hopened (opened_refl .param _) rfl rfl
  · cases h with
    | param htag =>
      rw [param_record src' k' htag rfl]
      exact .pure rfl
    | inside place tag h => exact hopened (opened_inside place tag h) rfl rfl

lemma params_same (h : f.Match part d d' f')
    (hpart : part "params" = .list .param) (hk : d ≤ k + 1) (hk' : d' ≤ k' + 1) :
    Same (List.map Param.bare) (each (param src k) f "params") (each (param src' k') f' "params") :=
  h.each (.inl hpart) fun _ _ hm hd hd' => param_same hm (by omega) (by omega)

lemma optType_same (h : f.Match part d d' f') {key : String}
    (hpart : part key = .type) (hk : d ≤ k + 1) (hk' : d' ≤ k' + 1) :
    Same (Option.map TypeExpr.bare) (optional (typeExpr src k) f key) (optional (typeExpr src' k') f' key) :=
  h.optional (types_read hk hk') hpart

lemma types_same (h : f.Match part d d' f') {key : String}
    (hpart : part key = .list .type) (hk : d ≤ k + 1) (hk' : d' ≤ k' + 1) :
    Same (List.map TypeExpr.bare) (each (typeExpr src k) f key) (each (typeExpr src' k') f' key) :=
  h.each (.inl hpart) (types_read hk hk')

variable (hdoc : ∀ n, src'.doc.bool? n = src.doc.bool? n)

include hdoc

lemma fieldDef_same (h : Near .field n n') (hk : depth n ≤ k + 1) (hk' : depth n' ≤ k' + 1) :
    Same FieldDef.bare (fieldDef src k n) (fieldDef src' k' n') := by
  rw [fieldDef, fieldDef]
  simp only [← bind_assoc]
  refine Both.bind (opened_of_near (by simp) h) fun f f' hf => (hf.flag hdoc rfl).bind fun pub pub' hpub => ?_
  refine (hf.str rfl).bind fun name name' hname => ?_
  refine (hf.child (types_read hk hk') rfl).bind fun t t' ht => .pure ?_
  simp [FieldDef.bare, hpub, hname, ht]

lemma variant_same (h : Near .variant n n') (hk : depth n ≤ k + 1) (hk' : depth n' ≤ k' + 1) :
    Same Variant.bare (variant src k n) (variant src' k' n') := by
  have hfields : Reads .field FieldDef.bare (depth n) (depth n') (fieldDef src k) (fieldDef src' k') :=
    fun m m' hm hd hd' => fieldDef_same hdoc hm (by omega) (by omega)
  rw [variant, variant]
  refine Both.bind (opened_of_near (by simp) h) fun f f' hf => (hf.str rfl).bind fun name name' hname => ?_
  exact (hf.each (.inl rfl) hfields).bind fun fs fs' hfs => .pure (by simp [Variant.bare, hname, hfs])

omit hdoc

/-! ### Blocks and clauses -/

variable {read read' : Yaml.Node → Result Stmt}

lemma blockWith_mapping (src : Source) (read : Yaml.Node → Result Stmt) (place : Place) (tag : String)
    (entries : List (Yaml.Node × Yaml.Node)) : blockWith src read (.mapping place tag entries) = (do
      let f ← mapping (.mapping place tag entries)
      let kind ← f.kind
      if kind ≠ "block" then fail (.mapping place tag entries) (.notBlockKind kind)
      return ⟨infoOf src (.mapping place tag entries), ← each read f "statements"⟩) := rfl

lemma block_opened (hr : r = .block ∨ r = .expr) (h : Opened r n n') (hn : ∀ place tag items, n ≠ .sequence place tag items)
    (hn' : ∀ place tag items, n' ≠ .sequence place tag items) (hread : Reads .stmt Stmt.bare (depth n) (depth n') read read') :
    Same bareBlock (blockWith src read n) (blockWith src' read' n') := by
  rcases opened_cases h with ⟨place, tag, entries, place', tag', entries', rfl, rfl⟩ | ⟨e, e', herror, herror'⟩
  · rw [blockWith_mapping, blockWith_mapping]
    refine Both.bind h fun f f' hf => hf.kind.bind fun kind kind' hkind => ?_
    obtain ⟨rfl, hkind⟩ := hkind
    rw [hkind] at hf
    by_cases hblock : kind' = "block"
    · subst hblock
      have hpart : r.part "block" "statements" = .list .stmt := by
        rcases hr with rfl | rfl <;> rfl
      exact (hf.each (.inl hpart) hread).bind fun ss ss' hss => .pure (by simp [bareBlock, hss])
    · simp only [hblock, ne_eq, not_false_eq_true, if_true]
      exact trivial
  · cases n with
    | sequence => exact absurd rfl (hn _ _ _)
    | mapping => cases herror
    | _ => cases n' with
      | sequence => exact absurd rfl (hn' _ _ _)
      | mapping => cases herror'
      | _ => exact .fail _ _ _ _

lemma blockWith_record (src : Source) (read : Yaml.Node → Result Stmt) {items : List Yaml.Node}
    {d e : Place} (htag : tag ≠ nullTag)
    (hn : n = .record a [(.word b "kind", .word c "block"), (.word d "statements", .sequence e tag items)]) :
    blockWith src read n = (do return ⟨infoOf src n, ← items.mapM read⟩) := by
  subst hn
  have hnull := isNull_sequence htag e items
  have hkeys : "kind" ≠ "statements" := by decide
  have hkind : Fields.str ⟨.record a [(.word b "kind", .word c "block"), (.word d "statements", .sequence e tag items)],
      [(.word b "kind", .word c "block"), (.word d "statements", .sequence e tag items)]⟩ "kind" = .ok "block" :=
    str_of_get? (by rw [get?_two _ _ _ _ _ _ hkeys, if_pos ⟨rfl, isNull_word c "block"⟩]; rfl)
  have hseq : Fields.seq ⟨.record a [(.word b "kind", .word c "block"), (.word d "statements", .sequence e tag items)],
      [(.word b "kind", .word c "block"), (.word d "statements", .sequence e tag items)]⟩ "statements" = .ok items := by
    rw [Fields.seq, get?_two _ _ _ _ _ _ hkeys, if_neg (by simp), if_pos ⟨rfl, hnull⟩]
  rw [Yaml.Node.record, blockWith_mapping, ← Yaml.Node.record, mapping_record, ok_bind, Fields.kind, hkind, ok_bind, each,
    hseq]
  rfl

lemma block_same (h : Near .block n n') (hread : Reads .stmt Stmt.bare (depth n) (depth n') read read') :
    Same bareBlock (blockWith src read n) (blockWith src' read' n') := by
  have hitems : ∀ items : List Yaml.Node, (∀ m ∈ items, depth m < depth n) → (∀ m ∈ items, depth m < depth n') →
      Same bareBlock (do return ⟨infoOf src n, ← items.mapM read⟩) (do return ⟨infoOf src' n', ← items.mapM read'⟩) := by
    intro items hd hd'
    have hsame : Same (List.map Stmt.bare) (items.mapM read) (items.mapM read') :=
      Both.mapM (List.forall₂_same.mpr fun m _ => Near.refl .stmt m) fun m hm m' hm' hnear =>
        hread m m' hnear (hd m hm) (hd' m' hm')
    exact hsame.bind fun ss ss' hss => .pure (by simp [bareBlock, hss])
  rcases h with rfl | h
  · cases n with
    | sequence place tag items => exact hitems items (fun _ => depth_item) fun _ => depth_item
    | _ => exact block_opened (.inl rfl) (opened_refl .block _) (by simp) (by simp) hread
  · cases h with
    | block htag a b c d e =>
      rw [blockWith_record src' read' htag rfl]
      refine hitems _ (fun _ => depth_item) fun m hm => ?_
      have := depth_le_depths hm
      simp only [Yaml.Node.record, depth, entryDepths]
      omega
    | inside place tag h => exact block_opened (.inl rfl) (opened_inside place tag h) (by simp) (by simp) hread

lemma blocks_read (hread : Reads .stmt Stmt.bare d d' read read') :
    Reads .block bareBlock d d' (blockWith src read) (blockWith src' read') := fun _ _ hm hd hd' =>
  block_same hm (hread.mono (Nat.le_of_lt hd) (Nat.le_of_lt hd'))

def patternsOf (src : Source) (k : Nat) (f : Fields) : Result (List Pattern) := do
  let several ← each (pattern src k) f "patterns"
  let single ← optional (pattern src k) f "pattern"
  return several ++ single.toList

lemma clauseWith_eq (src : Source) (k : Nat) (expr : Yaml.Node → Result Expr) (read : Yaml.Node → Result Stmt)
    (n : Yaml.Node) :
    clauseWith src k expr read n = (do
      let f ← mapping n
      let guard ← optional expr f "guard"
      let body ← blockWith src read (← f.required "body")
      let patterns ← patternsOf src k f
      if patterns.isEmpty then fail n .noPatterns
      return ⟨infoOf src n, patterns, guard, body⟩) := by
  simp only [clauseWith, patternsOf, bind_assoc, pure_bind]

lemma patterns_same (h : f.Match part d d' f')
    (hseveral : part "patterns" = .plain) (hsingle : part "pattern" = .plain) (hk : d ≤ k + 1) (hk' : d' ≤ k' + 1) :
    Same (List.map Pattern.bare) (patternsOf src k f) (patternsOf src' k' f') := by
  have hpatterns : Reads .plain Pattern.bare d d' (pattern src k) (pattern src' k') := by
    intro m m' hm hd hd'
    obtain rfl := hm.eq
    exact pattern_same k k' m (by omega) (by omega)
  rw [patternsOf, patternsOf]
  refine (h.each (.inr hseveral) hpatterns).bind fun ps ps' hps => ?_
  refine (h.optional hpatterns hsingle).bind fun p p' hp => .pure ?_
  have hlist : p.toList.map Pattern.bare = p'.toList.map Pattern.bare := by
    rw [← Option.toList_map, ← Option.toList_map, hp]
  rw [List.map_append, List.map_append, hps, hlist]

lemma patterns_moved {single : Yaml.Node} {several : List Yaml.Node}
    (hsingle : f.get? "pattern" = some single) (hseveral : f.seq "patterns" = .ok several)
    (hnone : f'.get? "pattern" = none) (hall : f'.get? "patterns" = some (.sequence a tag (several ++ [single])))
    (hd : ∀ m ∈ several ++ [single], depth m ≤ k) (hd' : ∀ m ∈ several ++ [single], depth m ≤ k') :
    Same (List.map Pattern.bare) (patternsOf src k f) (patternsOf src' k' f') := by
  have hpatterns : Same (List.map Pattern.bare) ((several ++ [single]).mapM (pattern src k))
      ((several ++ [single]).mapM (pattern src' k')) := by
    refine Both.mapM (List.forall₂_same.mpr fun m _ => rfl) fun m hm m' _ hmm' => ?_
    obtain rfl : m = m' := hmm'
    exact pattern_same k k' m (hd m hm) (hd' m hm)
  have hleft : patternsOf src k f = (several ++ [single]).mapM (pattern src k) := by
    simp [patternsOf, each, hseveral, optional, hsingle, List.mapM_append, ok_bind]
  have hright : patternsOf src' k' f' = (several ++ [single]).mapM (pattern src' k') := by
    have hseq : f'.seq "patterns" = .ok (several ++ [single]) := by rw [Fields.seq, hall]
    simp only [patternsOf, each, hseq, optional, hnone, ok_bind, Option.toList_none, List.append_nil, bind_pure]
  rw [hleft, hright]
  exact hpatterns

lemma clause_same {expr expr' : Yaml.Node → Result Expr} (h : Near .clause n n') (hk : depth n ≤ k + 1)
    (hk' : depth n' ≤ k' + 1) (hexpr : Reads .expr Expr.bare (depth n) (depth n') expr expr')
    (hread : Reads .stmt Stmt.bare (depth n) (depth n') read read') :
    Same Arm.bare (clauseWith src k expr read n) (clauseWith src' k' expr' read' n') := by
  rw [clauseWith_eq, clauseWith_eq]
  -- the patterns apart, everything goes by its key
  have hrest : ∀ {f f'}, Same (Option.map Expr.bare) (optional expr f "guard") (optional expr' f' "guard") →
      Both (fun m m' => Near .block m m' ∧ depth m < depth n ∧ depth m' < depth n') (f.required "body") (f'.required "body") →
      Same (List.map Pattern.bare) (patternsOf src k f) (patternsOf src' k' f') →
      Same Arm.bare (do
        let guard ← optional expr f "guard"
        let body ← blockWith src read (← f.required "body")
        let patterns ← patternsOf src k f
        if patterns.isEmpty then fail n .noPatterns
        return ⟨infoOf src n, patterns, guard, body⟩)
        (do
          let guard ← optional expr' f' "guard"
          let body ← blockWith src' read' (← f'.required "body")
          let patterns ← patternsOf src' k' f'
          if patterns.isEmpty then fail n' .noPatterns
          return ⟨infoOf src' n', patterns, guard, body⟩) := by
    intro f f' hguard hbody hpatterns
    refine hguard.bind fun guard guard' hguard => hbody.bind fun m m' hm => ?_
    refine (blocks_read hread m m' hm.1 hm.2.1 hm.2.2).bind fun body body' hbody => ?_
    refine hpatterns.bind fun ps ps' hps => ?_
    have hempty : ps.isEmpty = ps'.isEmpty := by
      rw [← List.isEmpty_map, hps, List.isEmpty_map]
    rw [hempty]
    cases ps'.isEmpty with
    | true => exact trivial
    | false => exact .pure (by simp [Arm.bare, hps, hguard, hbody])
  have hopened : Opened .clause n n' → _ := fun hn => Both.bind (Q := fun a b => Arm.bare a = Arm.bare b) hn
    fun f f' hf => hrest (hf.optional hexpr rfl) (hf.required "body") (patterns_same hf rfl rfl hk hk')
  rcases h with rfl | h
  · exact hopened (opened_refl .clause n)
  · cases h with
    | @pattern place a tag tag' entries entries' single several htag' hsingle hseveral hnone hall hsame =>
      have hguard := hsame "guard" (by decide) (by decide)
      have hbody := hsame "body" (by decide) (by decide)
      apply hrest
      · rw [optional, optional, hguard]
        cases hget : Fields.get? ⟨.mapping place tag entries, entries⟩ "guard" with
        | none => exact .pure rfl
        | some m =>
          have hm := hexpr m m (.refl .expr m) (depth_of_get? hget) (depth_of_get? (hguard.trans hget))
          exact hm.bind fun e e' he => .pure (by rw [Option.map_some, Option.map_some, he])
      · rw [Fields.required, Fields.required, hbody]
        cases hget : Fields.get? ⟨.mapping place tag entries, entries⟩ "body" with
        | none => exact trivial
        | some m => exact ⟨.refl .block m, depth_of_get? hget, depth_of_get? (hbody.trans hget)⟩
      · have hseq' : Fields.seq ⟨.mapping place tag entries', entries'⟩ "patterns" = .ok (several ++ [single]) := by
          rw [Fields.seq, hall]
        refine patterns_moved hsingle hseveral hnone hall (fun m hm => ?_) fun m hm => ?_
        · rcases List.mem_append.mp hm with hm | hm
          · have := depth_of_seq hseveral hm
            omega
          · obtain rfl := List.mem_singleton.mp hm
            have := depth_of_get? hsingle
            omega
        · have := depth_of_seq hseq' hm
          omega
    | inside place tag h => exact hopened (opened_inside place tag h)

/-! ### Expressions and statements -/

lemma fn_same (hdoc : ∀ n, src'.doc.bool? n = src.doc.bool? n) (h : Opened .fn n n') (hk : depth n ≤ k + 1)
    (hk' : depth n' ≤ k' + 1) (hread : Reads .stmt Stmt.bare (depth n) (depth n') read read') :
    Same bareFn (fnWith src k read n) (fnWith src' k' read' n') := by
  rw [fnWith, fnWith]
  refine Both.bind h fun f f' hf => hf.kind.bind fun kind kind' hkind => ?_
  obtain ⟨rfl, -⟩ := hkind
  by_cases hfn : kind' = "fn"
  · subst hfn
    refine (hf.flag hdoc rfl).bind fun pub pub' hpub => (hf.str rfl).bind fun name name' hname => ?_
    refine (generics_same hf rfl hk hk').bind fun gs gs' hgs => (params_same hf rfl hk hk').bind fun ps ps' hps => ?_
    refine (optType_same hf rfl hk hk').bind fun result result' hresult => ?_
    refine (hf.optional (blocks_read hread) rfl).bind fun body body' hbody => .pure ?_
    simp [bareFn, hpub, hname, hgs, hps, hresult, hbody]
  · simp only [hfn, ne_eq, not_false_eq_true, if_true]
    exact trivial

lemma part_value (kind : String) : Role.expr.part kind "value" = .plain := by
  rw [Role.part, Role.parts, Role.exprParts.eq_def]
  split <;> rfl

lemma expr_step (h : Opened .expr n n') (hk : depth n ≤ k + 1) (hk' : depth n' ≤ k' + 1)
    (hexpr : Reads .expr Expr.bare (depth n) (depth n') (expr src k) (expr src' k'))
    (hstmt : Reads .stmt Stmt.bare (depth n) (depth n') (stmt src k) (stmt src' k')) :
    Same Expr.bare (expr src (k + 1) n) (expr src' (k' + 1) n') := by
  have hclauses : Reads .clause Arm.bare (depth n) (depth n') (clauseWith src k (expr src k) (stmt src k))
      (clauseWith src' k' (expr src' k') (stmt src' k')) := fun m m' hm hd hd' =>
    clause_same hm (by omega) (by omega) (hexpr.mono (by omega) (by omega)) (hstmt.mono (by omega) (by omega))
  rw [expr, expr]
  rcases opened_fields h with ⟨f, f', hmap, hmap', hf⟩ | ⟨_, _, herror, herror'⟩
  · rw [hmap, hmap', ok_bind, ok_bind]
    refine hf.kind.bind fun kind kind' hkind => ?_
    obtain ⟨rfl, hkind⟩ := hkind
    rw [hkind] at hf
    simp only [← bind_assoc]
    split
    · refine (hf.str rfl).bind fun name name' hname => (types_same hf rfl hk hk').bind fun args args' hargs => .pure ?_
      simp [Expr.bare, Ident.bare, hname, hargs]
    iterate 5 exact (literal_same part_value h).bind fun l l' hl => .pure (by simp [Expr.bare, hl])
    · refine (hf.child hexpr rfl).bind fun callee callee' hcallee => ?_
      refine (hf.each (.inl rfl) hexpr).bind fun args args' hargs => .pure ?_
      simp [Expr.bare, hcallee, hargs]
    · refine (hf.child hexpr rfl).bind fun receiver receiver' hreceiver => (hf.str rfl).bind fun name name' hname => ?_
      refine (types_same hf rfl hk hk').bind fun types types' htypes => ?_
      refine (hf.each (.inl rfl) hexpr).bind fun args args' hargs => .pure ?_
      simp [Expr.bare, hreceiver, hname, htypes, hargs]
    · refine (hf.child hexpr rfl).bind fun receiver receiver' hreceiver => (hf.str rfl).bind fun name name' hname => ?_
      exact .pure (by simp [Expr.bare, hreceiver, hname])
    · refine (hf.str rfl).bind fun op op' hop => (hf.child hexpr rfl).bind fun left left' hleft => ?_
      refine (hf.child hexpr rfl).bind fun right right' hright => .pure ?_
      simp [Expr.bare, hop, hleft, hright]
    · refine (hf.str rfl).bind fun op op' hop => (hf.child hexpr rfl).bind fun operand operand' hoperand => ?_
      exact .pure (by simp [Expr.bare, hop, hoperand])
    · refine (params_same hf rfl hk hk').bind fun ps ps' hps => ?_
      refine (optType_same hf rfl hk hk').bind fun result result' hresult => ?_
      refine (hf.child (blocks_read hstmt) rfl).bind fun body body' hbody => .pure ?_
      simp [Expr.bare, hps, hresult, hbody]
    · refine (hf.child hexpr rfl).bind fun cond cond' hcond => (hf.child (blocks_read hstmt) rfl).bind fun yes yes' hyes => ?_
      refine (hf.optional (blocks_read hstmt) rfl).bind fun no no' hno => .pure ?_
      simp [Expr.bare, hcond, hyes, hno]
    · refine (hf.child hexpr rfl).bind fun scrutinee scrutinee' hscrutinee => ?_
      refine (hf.each (.inl rfl) hclauses).bind fun clauses clauses' hclauses => .pure ?_
      simp [Expr.bare, hscrutinee, hclauses]
    · exact (hf.each (.inl rfl) hexpr).bind fun elements elements' helements => .pure (by simp [Expr.bare, helements])
    · have hseq : ∀ {n : Yaml.Node} {f : Fields}, mapping n = .ok f → ∀ place tag items, n ≠ .sequence place tag items := by
        rintro n f hmap place tag items rfl
        cases hmap
      refine (block_opened (.inr rfl) h (hseq hmap) (hseq hmap') hstmt).bind fun body body' hbody => .pure ?_
      simp [Expr.bare, hbody]
    · exact .fail _ _ _ _
  · rw [herror, herror']
    exact trivial

lemma stmt_step (hdoc : ∀ n, src'.doc.bool? n = src.doc.bool? n) (h : Opened .stmt n n') (hk : depth n ≤ k)
    (hk' : depth n' ≤ k') (hself : Opened .expr n n' → Same Expr.bare (expr src k n) (expr src' k' n'))
    (hexpr : Reads .expr Expr.bare (depth n) (depth n') (expr src k) (expr src' k'))
    (hstmt : Reads .stmt Stmt.bare (depth n) (depth n') (stmt src k) (stmt src' k')) :
    Same Stmt.bare (stmt src (k + 1) n) (stmt src' (k' + 1) n') := by
  have hl : depth n ≤ k + 1 := Nat.le_succ_of_le hk
  have hl' : depth n' ≤ k' + 1 := Nat.le_succ_of_le hk'
  have hmethods : Reads .fn bareFn (depth n) (depth n') (fnWith src k (stmt src k)) (fnWith src' k' (stmt src' k')) :=
    fun m m' hm hd hd' => fn_same hdoc (opened_of_near (by simp) hm) (by omega) (by omega) (hstmt.mono (by omega) (by omega))
  have hvariants : Reads .variant Variant.bare (depth n) (depth n') (variant src k) (variant src' k') :=
    fun m m' hm hd hd' => variant_same hdoc hm (by omega) (by omega)
  rw [stmt, stmt]
  rcases opened_fields h with ⟨f, f', hmap, hmap', hf⟩ | ⟨_, _, herror, herror'⟩
  · rw [hmap, hmap', ok_bind, ok_bind]
    refine hf.kind.bind fun kind kind' hkind => ?_
    obtain ⟨rfl, hkind⟩ := hkind
    rw [hkind] at hf
    -- a statement that is no other is read as something else, out of the same mapping
    have hopened : ∀ {r : Role}, r.part kind' = Role.stmt.part kind' → Opened r n n' := by
      intro r hr
      rw [Opened, hmap, hmap']
      have hfields : f.Match (r.part (kindOf f)) (depth n) (depth n') f' := by
        rw [hkind, hr]
        exact hf
      exact hfields
    split
    · refine (hf.flag hdoc rfl).bind fun pub pub' hpub => (hf.str rfl).bind fun name name' hname => ?_
      refine (optType_same hf rfl hl hl').bind fun t t' ht => (hf.required "value").bind fun m m' hm => ?_
      refine (hexpr m m' hm.1 hm.2.1 hm.2.2).bind fun value value' hvalue => .pure ?_
      simp [Stmt.bare, hpub, hname, ht, hvalue]
    · exact (fn_same hdoc (hopened rfl) hl hl' hstmt).bind fun f f' hf => .pure (by simp [Stmt.bare, hf])
    · refine (hf.flag hdoc rfl).bind fun pub pub' hpub => (hf.str rfl).bind fun name name' hname => ?_
      refine (generics_same hf rfl hl hl').bind fun gs gs' hgs => ?_
      refine (hf.each (.inl rfl) hmethods).bind fun ms ms' hms => .pure ?_
      simp [Stmt.bare, hpub, hname, hgs, hms]
    · refine (hf.flag hdoc rfl).bind fun pub pub' hpub => (generics_same hf rfl hl hl').bind fun gs gs' hgs => ?_
      refine (optType_same hf rfl hl hl').bind fun trt trt' htrt => (hf.required "for").bind fun m m' hm => ?_
      refine (typeExpr_same k k' m m' hm.1 (by omega) (by omega)).bind fun t t' ht => ?_
      refine (hf.each (.inl rfl) hmethods).bind fun ms ms' hms => .pure ?_
      simp [Stmt.bare, hpub, hgs, htrt, ht, hms]
    · refine (hf.flag hdoc rfl).bind fun pub pub' hpub => (hf.str rfl).bind fun name name' hname => ?_
      refine (generics_same hf rfl hl hl').bind fun gs gs' hgs => ?_
      refine (hf.each (.inl rfl) hvariants).bind fun vs vs' hvs => .pure ?_
      simp [Stmt.bare, TypeDef.bare, hpub, hname, hgs, hvs]
    · exact (hf.optional hexpr rfl).bind fun value value' hvalue => .pure (by simp [Stmt.bare, hvalue])
    · have hparts : Role.expr.part kind' = Role.stmt.part kind' := by
        funext key
        rw [Role.part, Role.part, Role.parts, Role.parts, Role.stmtParts.eq_def]
        split <;> first | rfl | contradiction
      exact (hself (hopened hparts)).bind fun e e' he => .pure (by simp [Stmt.bare, he])
  · rw [herror, herror']
    exact trivial

lemma expr_stmt_same (hdoc : ∀ n, src'.doc.bool? n = src.doc.bool? n) (k : Nat) :
    (∀ k' n n', Opened .expr n n' → 2 * depth n ≤ k + 1 → 2 * depth n' ≤ k' + 1 →
      Same Expr.bare (expr src k n) (expr src' k' n')) ∧
    ∀ k' n n', Opened .stmt n n' → 2 * depth n ≤ k → 2 * depth n' ≤ k' →
      Same Stmt.bare (stmt src k n) (stmt src' k' n') := by
  induction k with
  | zero =>
    constructor <;>
    · intro k' n n' _ hk
      have := depth_pos n
      omega
  | succ k ih =>
    have hreads : ∀ d d' k', 2 * d ≤ k + 2 → 2 * d' ≤ k' + 2 → Reads .expr Expr.bare d d' (expr src k) (expr src' k') ∧
        Reads .stmt Stmt.bare d d' (stmt src k) (stmt src' k') := by
      intro d d' k' hd hd'
      constructor
      · exact fun m m' hm hdm hdm' => ih.1 k' m m' (opened_of_near (by simp) hm) (by omega) (by omega)
      · exact fun m m' hm hdm hdm' => ih.2 k' m m' (opened_of_near (by simp) hm) (by omega) (by omega)
    constructor
    · intro k' n n' h hk hk'
      have := depth_pos n'
      obtain ⟨k', rfl⟩ : ∃ l, k' = l + 1 := ⟨k' - 1, by omega⟩
      obtain ⟨hexpr, hstmt⟩ := hreads (depth n) (depth n') k' (by omega) (by omega)
      exact expr_step h (by omega) (by omega) hexpr hstmt
    · intro k' n n' h hk hk'
      have := depth_pos n
      have := depth_pos n'
      obtain ⟨k', rfl⟩ : ∃ l, k' = l + 1 := ⟨k' - 1, by omega⟩
      obtain ⟨hexpr, hstmt⟩ := hreads (depth n) (depth n') k' (by omega) (by omega)
      refine stmt_step hdoc h (by omega) (by omega) (fun hself => ?_) hexpr hstmt
      exact ih.1 k' n n' hself (by omega) (by omega)

/-! ### Modules -/

lemma use_mapping (src : Source) (k : Nat) (hn : n.isScalar = false) :
    use src (k + 1) n = (do
      let f ← mapping n
      return .mk (infoOf src n) (← f.flag src.doc "pub") (splitPath (← f.str "path")) (← f.flag src.doc "wildcard")
        (← each (use src k) f "nested")) := by
  cases n with
  | scalar => cases hn
  | _ => rfl

lemma use_record (src : Source) (k : Nat) {text : String} (htag : tag ≠ nullTag)
    (hn : n = .record a [(.word b "path", .scalar c tag text)]) :
    use src (k + 1) n = .ok (.mk (infoOf src n) false (splitPath text) false []) := by
  subst hn
  have hnull := isNull_scalar htag c text
  rw [use_mapping src k rfl, mapping_record, ok_bind, flag_of_get? _ (by rw [get?_one, if_neg (by simp)]), ok_bind,
    str_of_get? (by rw [get?_one, if_pos ⟨rfl, hnull⟩]), ok_bind,
    flag_of_get? _ (by rw [get?_one, if_neg (by simp)]), ok_bind,
    each_of_get? _ (by rw [get?_one, if_neg (by simp)])]
  rfl

lemma use_record_all (src : Source) (k : Nat) {path : String} {d e : Place} (htag : tag ≠ nullTag)
    (hn : n = .record a [(.word b "path", .scalar c tag path), (.word d "wildcard", .scalar e boolTag "true")]) :
    use src (k + 1) n = .ok (.mk (infoOf src n) false (splitPath path) true []) := by
  subst hn
  have hnull := isNull_scalar htag c path
  have hnull' : (Yaml.Node.scalar e boolTag "true").isNull = false := isNull_scalar (by decide) e "true"
  have hkeys : "path" ≠ "wildcard" := by decide
  have hwildcard : Fields.flag ⟨.record a [(.word b "path", .scalar c tag path), (.word d "wildcard", .scalar e boolTag "true")],
      [(.word b "path", .scalar c tag path), (.word d "wildcard", .scalar e boolTag "true")]⟩ src.doc "wildcard" =
      .ok true := by
    rw [Fields.flag, get?_two _ _ _ _ _ _ hkeys, if_neg (by simp), if_pos ⟨rfl, hnull'⟩]
    dsimp only
    have htrue : src.doc.bool? (.scalar e boolTag "true") = some true := by
      rw [Yaml.Document.bool?_eq]
      rfl
    rw [htrue]
  rw [use_mapping src k rfl, mapping_record, ok_bind,
    flag_of_get? _ (by rw [get?_two _ _ _ _ _ _ hkeys, if_neg (by simp), if_neg (by simp)]), ok_bind,
    str_of_get? (by rw [get?_two _ _ _ _ _ _ hkeys, if_pos ⟨rfl, hnull⟩]), ok_bind, hwildcard, ok_bind,
    each_of_get? _ (by rw [get?_two _ _ _ _ _ _ hkeys, if_neg (by simp), if_neg (by simp)])]
  rfl

lemma use_same (hdoc : ∀ n, src'.doc.bool? n = src.doc.bool? n) (k k' : Nat) (n n' : Yaml.Node) (h : Near .use n n')
    (hk : depth n ≤ k) (hk' : depth n' ≤ k') : Same Use.bare (use src k n) (use src' k' n') := by
  induction k generalizing k' n n' with
  | zero => exact absurd (depth_pos n) (by omega)
  | succ k ih =>
    obtain ⟨k', rfl⟩ : ∃ l, k' = l + 1 := ⟨k' - 1, by have := depth_pos n'; omega⟩
    have hopened : Opened .use n n' → n.isScalar = false → n'.isScalar = false →
        Same Use.bare (use src (k + 1) n) (use src' (k' + 1) n') := by
      intro hn hscalar hscalar'
      have hnested : Reads .use Use.bare (depth n) (depth n') (use src k) (use src' k') := fun m m' hm hd hd' =>
        ih k' m m' hm (by omega) (by omega)
      rw [use_mapping src k hscalar, use_mapping src' k' hscalar']
      refine Both.bind hn fun f f' hf => (hf.flag hdoc rfl).bind fun pub pub' hpub => ?_
      refine (hf.str rfl).bind fun path path' hpath => (hf.flag hdoc rfl).bind fun wild wild' hwild => ?_
      refine (hf.each (.inl rfl) hnested).bind fun nested nested' hnested => .pure ?_
      simp [Use.bare, hpub, hpath, hwild, hnested]
    rcases h with rfl | h
    · cases n with
      | scalar _ _ text =>
        simp only [use]
        split <;> exact .pure rfl
      | _ => exact hopened (opened_refl .use _) rfl rfl
    · cases h with
      | use htag htext =>
        rw [use_record src' k' htag rfl]
        simp only [use, htext]
        exact .pure rfl
      | useAll _ htag' htext =>
        rw [use_record_all src' k' htag' rfl]
        simp only [use, htext]
        exact .pure rfl
      | inside place tag h => exact hopened (opened_inside place tag h) rfl rfl

lemma module_same (h : Near .module src.doc.root src'.doc.root) (hdoc : ∀ n, src'.doc.bool? n = src.doc.bool? n) :
    Same (fun m : String × Module => (m.1, m.2.bare)) (module src) (module src') := by
  rw [module, module]
  refine Both.bind (opened_of_near (by simp) h) fun f f' hf => ?_
  have huses : Reads .use Use.bare (depth src.doc.root) (depth src'.doc.root) (use src (2 * depth src.doc.root + 2))
      (use src' (2 * depth src'.doc.root + 2)) := fun m m' hm hd hd' => use_same hdoc _ _ m m' hm (by omega) (by omega)
  have hstmts : Reads .stmt Stmt.bare (depth src.doc.root) (depth src'.doc.root) (stmt src (2 * depth src.doc.root + 2))
      (stmt src' (2 * depth src'.doc.root + 2)) := fun m m' hm hd hd' =>
    (expr_stmt_same hdoc _).2 _ m m' (opened_of_near (by simp) hm) (by omega) (by omega)
  refine (hf.each (.inl rfl) huses).bind fun uses uses' huses => ?_
  refine (hf.each (.inl rfl) hstmts).bind fun stmts stmts' hstmts => ?_
  refine (hf.str rfl).bind fun path path' hpath => .pure ?_
  simp [Module.bare, hpath, huses, hstmts]

end

/-- However many short forms are replaced, wherever they are, the document is read as the same module up to positions,
or it cannot be read before and after. -/
theorem module_of_expands (file file' : SourceFile) {d d' : Yaml.Document} (h : Relation.ReflTransGen ExpandsIn d d') :
    Both (fun m m' => m'.1 = m.1 ∧ m'.2.bare = m.2.bare) (module ⟨file, d⟩) (module ⟨file', d'⟩) := by
  have hsame : Same (fun m : String × Module => (m.1, m.2.bare)) (module ⟨file, d⟩) (module ⟨file', d'⟩) := by
    induction h with
    | refl => exact module_same (.refl .module d.root) fun _ => rfl
    | tail _ hstep ih =>
      exact ih.trans (module_same (.inr hstep.root) (Yaml.Document.bool?_of_targets hstep.targets))
  refine hsame.mono fun m m' hm => ?_
  exact ⟨(Prod.mk.inj hm).1.symm, (Prod.mk.inj hm).2.symm⟩

namespace Abridged

def place : Place := ⟨1, 1⟩

def text (s : String) : Yaml.Node := .word place s

def list (items : List Yaml.Node) : Yaml.Node := .sequence place "!!seq" items

def fn (param result body : Yaml.Node) : Yaml.Node :=
  .record place [(text "kind", text "fn"), (text "name", text "f"), (text "params", list [param]),
    (text "returns", result), (text "body", body)]

def doc (use stmt : Yaml.Node) : Yaml.Document where
  root := .record place [(text "module", text "app"), (text "uses", list [use]), (text "statements", list [stmt])]

def short : Yaml.Document := doc (text "lib::*") (fn (text "x") (text "_") (list []))

def long : Yaml.Document :=
  doc (.record place [(text "path", text "lib"), (text "wildcard", .scalar place boolTag "true")])
    (fn (.record place [(text "name", text "x")]) (.record place [(text "kind", text "hole")])
      (.record place [(text "kind", text "block"), (text "statements", list [])]))

lemma expandsIn_use {n n' : Yaml.Node} (h : Expands .use n n') (stmt : Yaml.Node) :
    ExpandsIn (doc n stmt) (doc n' stmt) where
  root := @Expands.inside .module place "!!map" [_] [_] (text "uses") _ _ (@Expands.item .use place "!!seq" [] [] _ _ h)
  targets := .nil

lemma expandsIn_stmt {n n' : Yaml.Node} (h : Expands .stmt n n') (use : Yaml.Node) :
    ExpandsIn (doc use n) (doc use n') where
  root := @Expands.inside .module place "!!map" [_, _] [] (text "statements") _ _
    (@Expands.item .stmt place "!!seq" [] [] _ _ h)
  targets := .nil

lemma expands_fn {p p' t t' b b' : Yaml.Node} (hp : Expands .param p p') (ht : Expands .type t t')
    (hb : Expands .block b b') :
    Expands .stmt (fn p t b) (fn p' t b) ∧ Expands .stmt (fn p' t b) (fn p' t' b) ∧
      Expands .stmt (fn p' t' b) (fn p' t' b') :=
  ⟨@Expands.inside .stmt place "!!map" [_, _] [_, _] (text "params") _ _ (@Expands.item .param place "!!seq" [] [] _ _ hp),
    @Expands.inside .stmt place "!!map" [_, _, _] [_] (text "returns") _ _ ht,
    @Expands.inside .stmt place "!!map" [_, _, _, _] [] (text "body") _ _ hb⟩

lemma expands : Relation.ReflTransGen ExpandsIn short long := by
  have hnull : Yaml.stringTag ≠ nullTag := by decide
  have huse : dropWildcard? "lib::*" = some "lib" := by decide
  have hseq : "!!seq" ≠ nullTag := by decide
  obtain ⟨hparam, htype, hbody⟩ := expands_fn (.param hnull place place place) (.hole hnull place place place)
    (.block hseq place place place place place)
  refine .head (expandsIn_use (.useAll hnull hnull huse place place place place place) _) ?_
  refine .head (expandsIn_stmt hparam _) (.head (expandsIn_stmt htype _) ?_)
  exact .single (expandsIn_stmt hbody _)

theorem read_alike : (module ⟨default, short⟩).isOk = true ∧
    Both (fun m m' => m'.1 = m.1 ∧ m'.2.bare = m.2.bare) (module ⟨default, short⟩) (module ⟨default, long⟩) :=
  ⟨by decide +kernel, module_of_expands default default expands⟩

end Abridged

end TraitCheck.Syntax.Decode
