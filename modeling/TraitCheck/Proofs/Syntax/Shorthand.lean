import Mathlib.Data.List.Forall2
import Mathlib.Logic.Relation
import TraitCheck.Proofs.Syntax.Bare
import TraitCheck.Syntax.Decode

/-! Shorter ways to write nodes. Whatever is written in a short way, anywhere in a document, can be written at length:
the module that is read is the same but for positions, or there is none in either case. -/

namespace TraitCheck

namespace Yaml.Node

def word (place : Place) (text : String) : Node := .scalar place stringTag text

def record (place : Place) (entries : List (Node × Node)) : Node := .mapping place "!!map" entries

def isScalar : Node → Bool
  | .scalar .. => true
  | _ => false

/-- The truth value that a node is, when it is not an alias. -/
def flag? : Node → Option Bool
  | .scalar _ tag text => (meaning? tag text).bind Meaning.bool?
  | _ => none

end Yaml.Node

namespace Yaml.Document

lemma bool?_eq (d : Document) (n : Node) : d.bool? n = (d.follow n).flag? := by
  rw [bool?]
  cases d.follow n <;> rfl

lemma bool?_of_targets {d d' : Document} (h : List.Forall₂ (fun n n' => n'.flag? = n.flag?) d.targets d'.targets)
    (n : Node) : d'.bool? n = d.bool? n := by
  rw [bool?_eq, bool?_eq]
  cases n with
  | «alias» _ _ i =>
    dsimp only [follow]
    generalize d.targets = targets at h ⊢
    generalize d'.targets = targets' at h ⊢
    induction h generalizing i with
    | nil => rfl
    | cons hn _ ih => cases i with
      | zero => exact hn
      | succ i => exact ih i
  | _ => rfl

end Yaml.Document

namespace Syntax.Decode

open Yaml (Place nullTag boolTag)

/-! ### What nodes are read as -/

inductive Role where
  | module
  | use
  | stmt
  | fn
  | variant
  | field
  | expr
  | clause
  | block
  | type
  | generic
  | param
  | list (r : Role)
  | plain

namespace Role

def fnParts : List (String × Role) :=
  [("generics", .list .generic), ("params", .list .param), ("returns", .type), ("body", .block)]

def exprParts : (kind : String) → List (String × Role)
  | "ident" => [("args", .list .type)]
  | "call" => [("callee", .expr), ("args", .list .expr)]
  | "method" => [("receiver", .expr), ("type-args", .list .type), ("args", .list .expr)]
  | "field" => [("receiver", .expr)]
  | "binary" => [("left", .expr), ("right", .expr)]
  | "unary" => [("operand", .expr)]
  | "closure" => [("params", .list .param), ("returns", .type), ("body", .block)]
  | "if" => [("cond", .expr), ("then", .block), ("else", .block)]
  | "match" => [("scrutinee", .expr), ("clauses", .list .clause)]
  | "list" => [("elements", .list .expr)]
  | "block" => [("statements", .list .stmt)]
  | _ => []

def stmtParts : (kind : String) → List (String × Role)
  | "var" => [("type", .type), ("value", .expr)]
  | "fn" => fnParts
  | "trait" => [("generics", .list .generic), ("methods", .list .fn)]
  | "impl" => [("generics", .list .generic), ("trait", .type), ("for", .type), ("methods", .list .fn)]
  | "type" => [("generics", .list .generic), ("variants", .list .variant)]
  | "return" => [("value", .expr)]
  | kind => exprParts kind

def typeParts : (kind : String) → List (String × Role)
  | "type" => [("args", .list .type)]
  | "fn-type" => [("generics", .list .generic), ("params", .list .type), ("returns", .type)]
  | _ => []

/-- The keys of a mapping under which there may be something that has a short way to write it. -/
def parts : Role → (kind : String) → List (String × Role)
  | .module, _ => [("uses", .list .use), ("statements", .list .stmt)]
  | .use, _ => [("nested", .list .use)]
  | .stmt, kind => stmtParts kind
  | .fn, _ => fnParts
  | .variant, _ => [("fields", .list .field)]
  | .field, _ => [("type", .type)]
  | .expr, kind => exprParts kind
  | .clause, _ => [("guard", .expr), ("body", .block)]
  | .block, _ => [("statements", .list .stmt)]
  | .type, kind => typeParts kind
  | .generic, _ => [("bounds", .list .type)]
  | .param, _ => [("type", .type)]
  | .list _, _ | .plain, _ => []

/-- What the value of a key is read as. -/
def part (r : Role) (kind key : String) : Role := ((r.parts kind).lookup key).getD .plain

end Role

/-- The `kind` that a mapping says it has. -/
def kindOf (f : Fields) : String := (f.get? "kind").elim "" Yaml.Node.text

/-! ### Long forms -/

/-- One short form in a node that is read as something is replaced by its long form. -/
inductive Expands : Role → Yaml.Node → Yaml.Node → Prop
  | hole {place : Place} {tag : String} (htag : tag ≠ nullTag) (a b c : Place) :
    Expands .type (.scalar place tag "_") (.record a [(.word b "kind", .word c "hole")])
  | named {place : Place} {tag text : String} (htag : tag ≠ nullTag) (htext : text ≠ "_") (a b c d e : Place) :
    Expands .type (.scalar place tag text)
      (.record a [(.word b "kind", .word c "type"), (.word d "name", .scalar e tag text)])
  | generic {place : Place} {tag text : String} (htag : tag ≠ nullTag) (a b c : Place) :
    Expands .generic (.scalar place tag text) (.record a [(.word b "name", .scalar c tag text)])
  | param {place : Place} {tag text : String} (htag : tag ≠ nullTag) (a b c : Place) :
    Expands .param (.scalar place tag text) (.record a [(.word b "name", .scalar c tag text)])
  | use {place : Place} {tag text : String} (htag : tag ≠ nullTag) (htext : dropWildcard? text = none) (a b c : Place) :
    Expands .use (.scalar place tag text) (.record a [(.word b "path", .scalar c tag text)])
  | useAll {place : Place} {tag tag' text path : String} (htag : tag ≠ nullTag) (htag' : tag' ≠ nullTag)
      (htext : dropWildcard? text = some path) (a b c d e : Place) :
    Expands .use (.scalar place tag text)
      (.record a [(.word b "path", .scalar c tag' path), (.word d "wildcard", .scalar e boolTag "true")])
  | block {place : Place} {tag : String} {items : List Yaml.Node} (htag : tag ≠ nullTag) (a b c d e : Place) :
    Expands .block (.sequence place tag items)
      (.record a [(.word b "kind", .word c "block"), (.word d "statements", .sequence e tag items)])
  | pattern {place a : Place} {tag tag' : String} {entries entries' : List (Yaml.Node × Yaml.Node)} {single : Yaml.Node}
      {several : List Yaml.Node} (htag' : tag' ≠ nullTag)
      (hsingle : Fields.get? ⟨.mapping place tag entries, entries⟩ "pattern" = some single)
      (hseveral : Fields.seq ⟨.mapping place tag entries, entries⟩ "patterns" = .ok several)
      (hnone : Fields.get? ⟨.mapping place tag entries', entries'⟩ "pattern" = none)
      (hall : Fields.get? ⟨.mapping place tag entries', entries'⟩ "patterns" =
        some (.sequence a tag' (several ++ [single])))
      (hrest : ∀ key, key ≠ "pattern" → key ≠ "patterns" →
        Fields.get? ⟨.mapping place tag entries', entries'⟩ key = Fields.get? ⟨.mapping place tag entries, entries⟩ key) :
    Expands .clause (.mapping place tag entries) (.mapping place tag entries')
  | inside {r : Role} (place : Place) (tag : String) {front back : List (Yaml.Node × Yaml.Node)} {key n n' : Yaml.Node}
      (h : Expands (r.part (kindOf ⟨.mapping place tag (front ++ (key, n) :: back), front ++ (key, n) :: back⟩) key.text)
        n n') :
    Expands r (.mapping place tag (front ++ (key, n) :: back)) (.mapping place tag (front ++ (key, n') :: back))
  | item {r : Role} (place : Place) (tag : String) {front back : List Yaml.Node} {n n' : Yaml.Node} (h : Expands r n n') :
    Expands (.list r) (.sequence place tag (front ++ n :: back)) (.sequence place tag (front ++ n' :: back))

/-- One short form in a document is replaced. What aliases stand for may be rewritten with it, but flags stay. -/
structure ExpandsIn (d d' : Yaml.Document) : Prop where
  root : Expands .module d.root d'.root
  targets : List.Forall₂ (fun n n' => n'.flag? = n.flag?) d.targets d'.targets

/-! ### Results of two decoders -/

/-- Two decoders both fail, or both give something. -/
def Both {α β : Type} (R : α → β → Prop) : Result α → Result β → Prop
  | .ok a, .ok b => R a b
  | .error _, .error _ => True
  | _, _ => False

abbrev Same {α γ : Type} (e : α → γ) : Result α → Result α → Prop := Both fun a b => e a = e b

namespace Both

variable {α β γ δ : Type} {R : α → β → Prop} {Q : γ → δ → Prop}

lemma pure {a : α} {b : β} (h : R a b) : Both R (Pure.pure a) (Pure.pure b) := h

lemma fail (n n' : Yaml.Node) (p p' : Problem) : Both R (Decode.fail n p) (Decode.fail n' p') := trivial

lemma bind {x : Result α} {y : Result β} {f : α → Result γ} {g : β → Result δ} (hxy : Both R x y)
    (hfg : ∀ a b, R a b → Both Q (f a) (g b)) : Both Q (x >>= f) (y >>= g) := by
  cases x with
  | error => cases y with
    | error => trivial
    | ok => exact hxy.elim
  | ok a => cases y with
    | error => exact hxy.elim
    | ok b => exact hfg a b hxy

lemma mono {R' : α → β → Prop} {x : Result α} {y : Result β} (hxy : Both R x y) (h : ∀ a b, R a b → R' a b) :
    Both R' x y := by
  cases x <;> cases y <;> first | exact h _ _ hxy | exact hxy

lemma trans {e : α → γ} {x y z : Result α} (hxy : Same e x y) (hyz : Same e y z) : Same e x z := by
  cases x <;> cases y <;> cases z <;> first | exact Eq.trans hxy hyz | exact hxy.elim | exact hyz.elim | trivial

lemma mapM {e : γ → δ} {l : List α} {l' : List β} {f : α → Result γ} {g : β → Result γ} (h : List.Forall₂ R l l')
    (hfg : ∀ a ∈ l, ∀ b ∈ l', R a b → Same e (f a) (g b)) : Same (List.map e) (l.mapM f) (l'.mapM g) := by
  induction h with
  | nil => exact pure rfl
  | cons hab _ ih =>
    rw [List.mapM_cons, List.mapM_cons]
    refine (hfg _ (by simp) _ (by simp) hab).bind fun c d hcd => ?_
    refine (ih fun a ha b hb => hfg a (by simp [ha]) b (by simp [hb])).bind fun cs ds hcds => pure ?_
    rw [List.map_cons, List.map_cons, hcd, hcds]

end Both

/-! ### Depth -/

lemma depth_pos (n : Yaml.Node) : 0 < depth n := by
  cases n <;> simp [depth]

variable {n n' : Yaml.Node} {tag : String} {r : Role}

lemma depth_le_depths {ns : List Yaml.Node} (h : n ∈ ns) : depth n ≤ depths ns := by
  induction ns with
  | nil => simp at h
  | cons m ns ih =>
    rw [depths]
    rcases List.mem_cons.mp h with rfl | h
    · exact Nat.le_max_left _ _
    · exact Nat.le_trans (ih h) (Nat.le_max_right _ _)

lemma depth_le_entryDepths {key : Yaml.Node} {entries : List (Yaml.Node × Yaml.Node)} (h : (key, n) ∈ entries) :
    depth n ≤ entryDepths entries := by
  induction entries with
  | nil => simp at h
  | cons e entries ih =>
    obtain ⟨_, v⟩ := e
    rw [entryDepths]
    rcases List.mem_cons.mp h with h | h
    · obtain ⟨rfl, rfl⟩ := Prod.mk.inj h
      exact Nat.le_max_left _ _
    · exact Nat.le_trans (ih h) (Nat.le_max_right _ _)

lemma mem_of_get? {f : Fields} {key : String} (h : f.get? key = some n) : ∃ k, (k, n) ∈ f.entries := by
  rw [Fields.get?] at h
  split at h
  · next k v hfind =>
    split at h
    · cases h
    · obtain rfl := Option.some.inj h
      exact ⟨k, List.mem_reverse.mp (List.mem_of_find?_eq_some hfind)⟩
  · cases h

lemma depth_of_get? {place : Place} {entries : List (Yaml.Node × Yaml.Node)} {key : String}
    (h : Fields.get? ⟨.mapping place tag entries, entries⟩ key = some n) :
    depth n < depth (.mapping place tag entries) := by
  obtain ⟨k, hk⟩ := mem_of_get? h
  rw [depth]
  exact Nat.lt_succ_of_le (depth_le_entryDepths hk)

lemma depth_item {place : Place} {items : List Yaml.Node} (h : n ∈ items) :
    depth n < depth (.sequence place tag items) := by
  have := depth_le_depths h
  rw [depth]
  omega

lemma depth_of_seq {place : Place} {entries : List (Yaml.Node × Yaml.Node)} {key : String}
    {items : List Yaml.Node} (h : Fields.seq ⟨.mapping place tag entries, entries⟩ key = .ok items) (hn : n ∈ items) :
    depth n + 1 < depth (.mapping place tag entries) := by
  rw [Fields.seq] at h
  split at h
  · cases h
    simp at hn
  · next hget =>
    cases h
    have := depth_of_get? hget
    exact Nat.lt_of_le_of_lt (depth_item hn) this
  · cases h

/-! ### Nodes that are alike -/

/-- Nodes that are the same, but for one short form at most. -/
def Near (r : Role) (n n' : Yaml.Node) : Prop := n = n' ∨ Expands r n n'

lemma Near.refl (r : Role) (n : Yaml.Node) : Near r n n := .inl rfl

lemma not_expands_plain : ¬Expands .plain n n' := by
  intro h
  generalize hr : Role.plain = r at h
  induction h with
  | inside _ _ _ ih =>
    subst hr
    exact ih rfl
  | _ => cases hr

lemma Near.eq (h : Near .plain n n') : n = n' := h.resolve_right not_expands_plain

lemma Expands.isNull_eq (h : Expands r n n') : n'.isNull = n.isNull := by
  have hmap : "!!map" ≠ nullTag := by decide
  cases h with
  | pattern | inside | item => rfl
  | hole htag | named htag | generic htag | param htag | use htag | useAll htag | block htag =>
    simp [Yaml.Node.isNull, Yaml.Node.tag, Yaml.Node.record, htag, hmap]

lemma part_kind (r : Role) (kind : String) : r.part kind "kind" = .plain := by
  have hfn : (Role.fnParts.lookup "kind").getD Role.plain = .plain := rfl
  have hexpr : ((Role.exprParts kind).lookup "kind").getD Role.plain = .plain := by
    rw [Role.exprParts.eq_def]
    split <;> rfl
  rw [Role.part]
  cases r with
  | stmt =>
    rw [Role.parts, Role.stmtParts.eq_def]
    split <;> first | rfl | exact hexpr
  | type =>
    rw [Role.parts, Role.typeParts.eq_def]
    split <;> rfl
  | expr => exact hexpr
  | _ => rfl

structure Fields.Match (part : String → Role) (d d' : Nat) (f f' : Fields) : Prop where
  near : ∀ key, Option.Rel (Near (part key)) (f.get? key) (f'.get? key)
  below : ∀ key n, f.get? key = some n → depth n < d
  below' : ∀ key n, f'.get? key = some n → depth n < d'

def Opened (r : Role) (n n' : Yaml.Node) : Prop :=
  Both (fun f f' => f.Match (r.part (kindOf f)) (depth n) (depth n') f') (mapping n) (mapping n')

lemma opened_refl (r : Role) (n : Yaml.Node) : Opened r n n := by
  cases n with
  | mapping place tag entries =>
    refine ⟨fun key => ?_, fun key n => depth_of_get?, fun key n => depth_of_get?⟩
    cases Fields.get? ⟨.mapping place tag entries, entries⟩ key with
    | none => exact .none
    | some v => exact .some (.refl _ v)
  | _ => trivial

lemma rel_of_replaced {n₀ n₁ : Yaml.Node} {front back : List (Yaml.Node × Yaml.Node)} {key : Yaml.Node}
    {R : Yaml.Node → Yaml.Node → Prop} (key' : String) (hrefl : ∀ v, R v v) (h : key.text = key' → R n n') (hnull : n'.isNull = n.isNull) :
    Option.Rel R (Fields.get? ⟨n₀, front ++ (key, n) :: back⟩ key') (Fields.get? ⟨n₁, front ++ (key, n') :: back⟩ key') := by
  simp only [Fields.get?, List.reverse_append, List.reverse_cons, List.append_assoc, List.find?_append,
    List.find?_cons, List.singleton_append]
  cases hback : back.reverse.find? (·.1.text = key') with
  | some e =>
    dsimp only [Option.some_or]
    split
    · exact .none
    · exact .some (hrefl _)
  | none =>
    dsimp only [Option.none_or]
    by_cases hkey : key.text = key'
    · simp only [hkey, decide_true]
      rw [hnull]
      split
      · exact .none
      · exact .some (h hkey)
    · simp only [hkey, decide_false]
      cases front.reverse.find? (·.1.text = key') with
      | none => exact .none
      | some e =>
        dsimp only
        split
        · exact .none
        · exact .some (hrefl _)

lemma opened_inside (place : Place) (tag : String) {front back : List (Yaml.Node × Yaml.Node)} {key : Yaml.Node}
    (h : Expands (r.part (kindOf ⟨.mapping place tag (front ++ (key, n) :: back), front ++ (key, n) :: back⟩) key.text)
      n n') :
    Opened r (.mapping place tag (front ++ (key, n) :: back)) (.mapping place tag (front ++ (key, n') :: back)) := by
  refine ⟨fun key' => ?_, fun key n => depth_of_get?, fun key n => depth_of_get?⟩
  exact rel_of_replaced key' (.refl _) (fun hkey => .inr (hkey ▸ h)) h.isNull_eq

lemma opened_of_near (hr : r = .module ∨ r = .stmt ∨ r = .fn ∨ r = .variant ∨ r = .field ∨ r = .expr)
    (h : Near r n n') : Opened r n n' := by
  rcases h with rfl | h
  · exact opened_refl r n
  · cases h with
    | inside place tag h => exact opened_inside place tag h
    | _ => simp at hr

lemma opened_cases (h : Opened r n n') :
    (∃ place tag entries place' tag' entries', n = .mapping place tag entries ∧ n' = .mapping place' tag' entries') ∨
      ∃ e e', mapping n = .error e ∧ mapping n' = .error e' := by
  cases n with
  | mapping place tag entries =>
    cases n' with
    | mapping place' tag' entries' => exact .inl ⟨place, tag, entries, place', tag', entries', rfl, rfl⟩
    | _ => exact h.elim
  | _ =>
    cases n' with
    | mapping => exact h.elim
    | _ => exact .inr ⟨_, _, rfl, rfl⟩

lemma opened_fields (h : Opened r n n') :
    (∃ f f', mapping n = .ok f ∧ mapping n' = .ok f' ∧ f.Match (r.part (kindOf f)) (depth n) (depth n') f') ∨
      ∃ e e', mapping n = .error e ∧ mapping n' = .error e' := by
  rcases opened_cases h with ⟨_, _, _, _, _, _, rfl, rfl⟩ | herror
  · exact .inl ⟨_, _, rfl, rfl, h⟩
  · exact .inr herror

/-! ### Values of keys -/

def Reads {α γ : Type} (r : Role) (e : α → γ) (d d' : Nat) (read read' : Yaml.Node → Result α) : Prop :=
  ∀ n n', Near r n n' → depth n < d → depth n' < d' → Same e (read n) (read' n')

lemma Reads.mono {α γ : Type} {e : α → γ} {c c' d d' : Nat} {read read' : Yaml.Node → Result α}
    (h : Reads r e d d' read read') (hd : c ≤ d) (hd' : c' ≤ d') : Reads r e c c' read read' := fun m m' hm hdm hdm' =>
  h m m' hm (Nat.lt_of_lt_of_le hdm hd) (Nat.lt_of_lt_of_le hdm' hd')

namespace Fields.Match

variable {α γ : Type} {e : α → γ} {r : Role} {part : String → Role} {d d' : Nat} {f f' : Fields}
  (h : f.Match part d d' f')

include h

variable {key : String} {decode decode' : Yaml.Node → Result α}

lemma get?_eq (hkey : part key = .plain) : f.get? key = f'.get? key := by
  have hnear := h.near key
  rw [hkey] at hnear
  generalize f.get? key = n at hnear ⊢
  generalize f'.get? key = n' at hnear ⊢
  cases hnear with
  | none => rfl
  | some hn => rw [hn.eq]

lemma required (key : String) : Both (fun n n' => Near (part key) n n' ∧ depth n < d ∧ depth n' < d')
    (f.required key) (f'.required key) := by
  have hnear := h.near key
  have hbelow := h.below key
  have hbelow' := h.below' key
  rw [Fields.required, Fields.required]
  generalize f.get? key = n at hnear hbelow
  generalize f'.get? key = n' at hnear hbelow'
  cases hnear with
  | none => trivial
  | some hn => exact ⟨hn, hbelow _ rfl, hbelow' _ rfl⟩

lemma str (hkey : part key = .plain) : Both Eq (f.str key) (f'.str key) := by
  rw [Fields.str, Fields.str]
  refine (h.required key).bind fun n n' hn => ?_
  rw [hkey] at hn
  obtain rfl := hn.1.eq
  cases n with
  | scalar => exact .pure rfl
  | _ => exact .fail _ _ _ _

lemma flag {doc doc' : Yaml.Document} (hdoc : ∀ n, doc'.bool? n = doc.bool? n)
    (hkey : part key = .plain) : Both Eq (f.flag doc key) (f'.flag doc' key) := by
  rw [Fields.flag, Fields.flag, ← h.get?_eq hkey]
  cases f.get? key with
  | none => exact .pure rfl
  | some n =>
    dsimp only
    rw [hdoc]
    cases doc.bool? n with
    | none => exact .fail _ _ _ _
    | some b => exact .pure rfl

lemma child (hdecode : Reads r e d d' decode decode') (hkey : part key = r) :
    Same e (f.required key >>= decode) (f'.required key >>= decode') :=
  (h.required key).bind fun n n' hn => hdecode n n' (hkey ▸ hn.1) hn.2.1 hn.2.2

lemma optional (hdecode : Reads r e d d' decode decode') (hkey : part key = r) :
    Same (Option.map e) (Decode.optional decode f key) (Decode.optional decode' f' key) := by
  have hnear := hkey ▸ h.near key
  have hbelow := h.below key
  have hbelow' := h.below' key
  rw [Decode.optional, Decode.optional]
  generalize f.get? key = n at hnear hbelow
  generalize f'.get? key = n' at hnear hbelow'
  cases hnear with
  | none => exact .pure rfl
  | some hn =>
    refine (hdecode _ _ hn (hbelow _ rfl) (hbelow' _ rfl)).bind fun a b hab => .pure ?_
    rw [Option.map_some, Option.map_some, hab]

lemma seq (hkey : part key = .list r ∨ part key = .plain) :
    Both (fun ns ns' => List.Forall₂ (Near r) ns ns' ∧ (∀ n ∈ ns, depth n < d) ∧ ∀ n ∈ ns', depth n < d')
      (f.seq key) (f'.seq key) := by
  have hnear := h.near key
  have hbelow := h.below key
  have hbelow' := h.below' key
  rw [Fields.seq, Fields.seq]
  generalize f.get? key = n at hnear hbelow
  generalize f'.get? key = n' at hnear hbelow'
  have hitems : ∀ {d place tag items}, depth (.sequence place tag items) < d → ∀ n ∈ items, depth n < d :=
    fun hd n hn => Nat.lt_trans (depth_item hn) hd
  have hrefl : ∀ ns : List Yaml.Node, List.Forall₂ (Near r) ns ns := fun ns => List.forall₂_same.mpr fun n _ => .refl r n
  cases hnear with
  | none => exact ⟨.nil, by simp, by simp⟩
  | @some n n' hn =>
    rcases hn with rfl | hn
    · cases n with
      | sequence => exact ⟨hrefl _, hitems (hbelow _ rfl), hitems (hbelow' _ rfl)⟩
      | _ => exact .fail _ _ _ _
    · rcases hkey with hkey | hkey
      · rw [hkey] at hn
        cases hn with
        | inside _ _ hplain => exact absurd hplain not_expands_plain
        | item _ _ hitem =>
          refine ⟨?_, hitems (hbelow _ rfl), hitems (hbelow' _ rfl)⟩
          exact List.rel_append (hrefl _) (.cons (.inr hitem) (hrefl _))
      · rw [hkey] at hn
        exact absurd hn not_expands_plain

lemma each (hkey : part key = .list r ∨ part key = .plain) (hdecode : Reads r e d d' decode decode') :
    Same (List.map e) (Decode.each decode f key) (Decode.each decode' f' key) := by
  rw [Decode.each, Decode.each]
  refine (h.seq hkey).bind fun ns ns' hns => ?_
  exact .mapM hns.1 fun n hn n' hn' hnear => hdecode n n' hnear (hns.2.1 n hn) (hns.2.2 n' hn')

end Fields.Match

lemma Fields.Match.kind {d d' : Nat} {f f' : Fields} (h : f.Match (r.part (kindOf f)) d d' f') :
    Both (fun kind kind' => kind' = kind ∧ kindOf f = kind) f.kind f'.kind := by
  have hsame := h.get?_eq (part_kind r (kindOf f))
  rw [Fields.kind, Fields.kind, Fields.str, Fields.str, Fields.required, Fields.required, kindOf, ← hsame]
  cases f.get? "kind" with
  | none => exact trivial
  | some n => cases n with
    | scalar _ _ text => exact ⟨rfl, rfl⟩
    | _ => exact trivial

/-! ### Records -/

lemma isNull_scalar (htag : tag ≠ nullTag) (p : Place) (text : String) :
    (Yaml.Node.scalar p tag text).isNull = false :=
  decide_eq_false htag

lemma isNull_sequence (htag : tag ≠ nullTag) (p : Place) (items : List Yaml.Node) :
    (Yaml.Node.sequence p tag items).isNull = false :=
  decide_eq_false htag

@[simp] lemma isNull_word (p : Place) (text : String) : (Yaml.Node.word p text).isNull = false :=
  isNull_scalar (by decide) p text

lemma get?_one (n : Yaml.Node) (b : Place) (k : String) (v : Yaml.Node) (key : String) :
    Fields.get? ⟨n, [(.word b k, v)]⟩ key = if k = key ∧ v.isNull = false then some v else none := by
  by_cases hk : k = key <;> cases hv : v.isNull <;> simp [Fields.get?, Yaml.Node.word, Yaml.Node.text, hk, hv]

lemma get?_two (n : Yaml.Node) (b d : Place) {k l : String} (v w : Yaml.Node) (key : String) (hkl : k ≠ l) :
    Fields.get? ⟨n, [(.word b k, v), (.word d l, w)]⟩ key =
      if k = key ∧ v.isNull = false then some v else if l = key ∧ w.isNull = false then some w else none := by
  by_cases hl : l = key
  · subst hl
    cases hw : w.isNull <;> simp [Fields.get?, Yaml.Node.word, Yaml.Node.text, hkl, hw]
  · by_cases hk : k = key <;> cases hv : v.isNull <;> simp [Fields.get?, Yaml.Node.word, Yaml.Node.text, hl, hk, hv]

section

variable {α β : Type} {f : Fields} {key : String}

lemma ok_bind (a : α) (k : α → Result β) : (.ok a >>= k) = k a := rfl

lemma mapping_record (a : Place) (entries : List (Yaml.Node × Yaml.Node)) :
    mapping (.record a entries) = .ok ⟨.record a entries, entries⟩ := rfl

lemma str_of_get? {p : Place} {tag text : String} (h : f.get? key = some (.scalar p tag text)) : f.str key = .ok text := by
  rw [Fields.str, Fields.required, h]
  rfl

lemma flag_of_get? (doc : Yaml.Document) (h : f.get? key = none) : f.flag doc key = .ok false := by
  rw [Fields.flag, h]

lemma each_of_get? (decode : Yaml.Node → Result α) (h : f.get? key = none) : each decode f key = .ok [] := by
  rw [each, Fields.seq, h]
  rfl

lemma optional_of_get? (decode : Yaml.Node → Result α) (h : f.get? key = none) : optional decode f key = .ok none := by
  rw [optional, h]

end

end Syntax.Decode

end TraitCheck
