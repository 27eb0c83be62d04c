import ScriptWarden.Lua.Compiler
import ScriptWarden.Proofs.Lua.Public
set_option autoImplicit false

/-!
# Lua: compiled code is public

The only values that a program writes down are `nil`, truth values, numbers and strings, so that no operand of
the code made from it is the function behind the guard (`public_compile`).
-/

namespace ScriptWarden.Lua

instance : HasPublic Operand := ⟨Operand.Public⟩

instance : HasPublic Instr := ⟨Instr.Public⟩

namespace Compiler

/-! ## Writing -/

instance : HasPublic Target where
  Public
    | .variable _ => True
    | .field o k _ => o.Public ∧ k.Public

/-- The code so far is public. -/
def State.Public (s : State) : Prop := ∀ i ∈ s.code, i.Public

variable {α β : Type} [HasPublic α] [HasPublic β]

/-- Whatever is written is public, and so is what comes of it. -/
def Emit.Public (e : Emit α) : Prop := ∀ s, s.Public → (e.run s).2.Public ∧ IsPublic (e.run s).1

theorem public_pure {a : α} (ha : IsPublic a) : Emit.Public (pure a) := fun _ hs => ⟨hs, ha⟩

theorem Emit.Public.bind {e : Emit α} {k : α → Emit β} (h : Emit.Public e)
    (hk : ∀ a, IsPublic a → Emit.Public (k a)) : Emit.Public (e >>= k) :=
  fun s hs => hk _ (h s hs).2 _ (h s hs).1

theorem public_ite {c : Prop} [Decidable c] {e e' : Emit α} (h : Emit.Public e)
    (h' : Emit.Public e') : Emit.Public (if c then e else e') := by
  split
  · exact h
  · exact h'

theorem public_emit {i : Instr} {line : Nat} (hi : i.Public := by trivial) :
    Emit.Public (emit i line) := by
  refine fun s hs => ⟨fun j hj => ?_, trivial⟩
  obtain hold | rfl := Array.mem_push.1 hj
  · exact hs j hold
  · exact hi

/-- What leaves the code alone. -/
theorem public_modify {f : State → State} (hf : ∀ s, (f s).code = s.code) :
    Emit.Public (modify f : Emit Unit) := by
  refine fun s hs => ⟨?_, trivial⟩
  intro i hi
  exact hs i (by rwa [← hf s])

theorem public_newLabel : Emit.Public newLabel := fun _ hs => ⟨hs, trivial⟩

theorem public_place (label : Nat) : Emit.Public (place label) := public_modify fun _ => rfl

theorem public_useSlot (slot : Nat) : Emit.Public (useSlot slot) := public_modify fun _ => rfl

theorem public_declare (slot line : Nat) : Emit.Public (declare slot line) :=
  (public_useSlot slot).bind fun _ _ => public_emit

/-! ## Expressions -/

theorem public_direct? {e : Expr} {o : Operand} (h : direct? e = some o) : o.Public := by
  unfold direct? at h
  split at h <;> cases h <;> trivial

theorem public_envOperand? {e : Expr} {o : Operand} (h : envOperand? e = some o) : o.Public := by
  unfold envOperand? at h
  split at h
  · split at h <;> cases h
    trivial
  · cases h

theorem public_operandOf (e : Expr) {code : Emit Unit} (h : Emit.Public code) :
    Emit.Public (operandOf e code) := by
  unfold operandOf
  split
  · next hdirect => exact public_pure (public_direct? hdirect)
  · split
    · next henv => exact public_pure (public_envOperand? henv)
    · exact h.bind fun _ _ => public_pure trivial

mutual

theorem public_value (e : Expr) (line : Nat) : Emit.Public (value e line) :=
  match e with
  | .nil | .bool _ | .int _ | .float _ | .str _ | .vararg | .function _ => public_emit
  | .variable (.slot _) _ | .variable (.captured _) _ => public_emit
  | .index obj key l =>
    (public_operandOf obj (public_value obj l)).bind fun _ ho =>
      (public_operandOf key (public_value key l)).bind fun _ hk => public_emit (by exact ⟨ho, hk⟩)
  | .call f args l =>
    (public_value f l).bind fun _ _ => (public_arguments args 0 l).bind fun _ _ => public_emit
  | .method obj _ nameLine args l =>
    (public_operandOf obj (public_value obj nameLine)).bind fun _ ho =>
      (public_emit (by exact ho)).bind fun _ _ =>
        (public_arguments args 1 l).bind fun _ _ => public_emit
  | .arith _ a b l =>
    public_ite
      ((public_operandOf a (public_value a l)).bind fun _ hx => public_emit (by exact ⟨hx, trivial⟩))
      ((public_operandOf a (public_value a l)).bind fun _ hx =>
        (public_operandOf b (public_value b l)).bind fun _ hy => public_emit (by exact ⟨hx, hy⟩))
  | .concat a b l =>
    (public_value a l).bind fun _ _ => (public_value b l).bind fun _ _ => public_emit
  | .compare _ a b l =>
    (public_operandOf a (public_value a l)).bind fun _ hx =>
      (public_operandOf b (public_value b l)).bind fun _ hy => public_emit (by exact ⟨hx, hy⟩)
  | .and a b | .or a b =>
    public_newLabel.bind fun done _ => (public_value a line).bind fun _ _ =>
      (public_emit).bind fun _ _ => (public_value b line).bind fun _ _ => public_place done
  | .not a =>
    (public_operandOf a (public_value a line)).bind fun _ hx => public_emit (by exact hx)
  | .len a l => (public_operandOf a (public_value a l)).bind fun _ hx => public_emit (by exact hx)
  | .table items => (public_emit).bind fun _ _ => public_fields items 1 line
  | .paren e => public_value e line

theorem public_arguments (args : List Expr) (n line : Nat) : Emit.Public (arguments args n line) :=
  match args with
  | [] => public_pure ⟨trivial, trivial⟩
  | [e] => (public_openValues e line).bind fun _ _ => public_ite (public_pure ⟨trivial, trivial⟩)
      ((public_value e line).bind fun _ _ => public_pure ⟨trivial, trivial⟩)
  | e :: e' :: rest => (public_value e line).bind fun _ _ => public_arguments (e' :: rest) (n + 1) line

theorem public_openValues (e : Expr) (line : Nat) : Emit.Public (openValues e line) := by
  unfold openValues
  split
  · exact (public_emit).bind fun _ _ => public_pure trivial
  · next f args l =>
    exact (public_value f l).bind fun _ _ => (public_arguments args 0 l).bind fun _ _ =>
      (public_emit).bind fun _ _ => public_pure trivial
  · next obj name nameLine args l =>
    exact (public_operandOf obj (public_value obj nameLine)).bind fun _ ho =>
      (public_emit (by exact ho)).bind fun _ _ => (public_arguments args 1 l).bind fun _ _ =>
        (public_emit).bind fun _ _ => public_pure trivial
  · exact public_pure trivial

theorem public_fields (items : List Item) (next line : Nat) : Emit.Public (fields items next line) :=
  match items with
  | [] => public_pure trivial
  | .keyed key v l :: rest =>
    (public_operandOf key (public_value key l)).bind fun _ hk =>
      (public_operandOf v (public_value v l)).bind fun _ hx =>
        (public_emit (by exact ⟨hk, hx⟩)).bind fun _ _ => public_fields rest next line
  | [.positional e] =>
    (public_openValues e line).bind fun _ _ => public_ite (public_emit)
      ((public_value e line).bind fun _ _ => public_emit)
  | .positional e :: item :: rest =>
    (public_value e line).bind fun _ _ => (public_emit).bind fun _ _ =>
      public_fields (item :: rest) (next + 1) line

end

theorem public_operand (e : Expr) (line : Nat) : Emit.Public (operand e line) :=
  public_operandOf e (public_value e line)

/-! A call is written in two parts, what is called and its arguments, and ends as the place where it stands asks for. -/

theorem public_called (f : Expr) (args : List Expr) (line : Nat) {last : Nat × Bool → Emit α}
    (h : ∀ given, Emit.Public (last given)) :
    Emit.Public (do value f line; arguments args 0 line >>= last) :=
  (public_value f line).bind fun _ _ => (public_arguments args 0 line).bind fun given _ => h given

theorem public_calledMethod (obj : Expr) (name : Bytes) (nameLine : Nat) (args : List Expr) (line : Nat)
    {last : Nat × Bool → Emit α} (h : ∀ given, Emit.Public (last given)) :
    Emit.Public (do
      let o ← operand obj nameLine
      emit (.method o name (operandOrigin obj)) nameLine
      arguments args 1 line >>= last) :=
  (public_operand obj nameLine).bind fun _ ho => (public_emit (by exact ho)).bind fun _ _ =>
    (public_arguments args 1 line).bind fun given _ => h given

/-! ## Lists of expressions -/

theorem public_nils (count line : Nat) : Emit.Public (nils count line) := by
  induction count with
  | zero => exact public_pure trivial
  | succ n ih => exact (public_emit).bind fun _ _ => ih

theorem public_adjusted (exprs : List Expr) (count line : Nat) :
    Emit.Public (adjusted exprs count line) := by
  induction exprs generalizing count with
  | nil => exact public_nils count line
  | cons e rest ih =>
    have hvalue := public_value e line
    cases rest with
    | nil =>
      match count with
      | 0 => exact hvalue.bind fun _ _ => public_emit
      | 1 => exact hvalue
      | n + 2 =>
        unfold adjusted
        split
        · exact public_emit
        · next f args l => exact public_called f args l fun _ => public_emit
        · next obj name nameLine args l =>
          exact public_calledMethod obj name nameLine args l fun _ => public_emit
        · exact hvalue.bind fun _ _ => public_nils _ _
    | cons e' rest =>
      cases count with
      | zero => exact hvalue.bind fun _ _ => (public_emit).bind fun _ _ => ih 0
      | succ n => exact hvalue.bind fun _ _ => ih n

theorem public_declareAll (first count line : Nat) : Emit.Public (declareAll first count line) := by
  induction count with
  | zero => exact public_pure trivial
  | succ n ih => exact (public_declare _ _).bind fun _ _ => ih

/-! ## Assignments -/

theorem public_hold (e : Expr) (free line : Nat) : Emit.Public (hold e free line) := by
  unfold hold
  split
  · next hdirect => exact public_pure ⟨public_direct? hdirect, trivial⟩
  · next henv _ => exact public_pure ⟨public_envOperand? henv, trivial⟩
  · exact (public_value e line).bind fun _ _ => (public_declare free line).bind fun _ _ =>
      public_pure ⟨trivial, trivial⟩

theorem public_targets (es : List Expr) (free line : Nat) : Emit.Public (targets es free line) := by
  induction es generalizing free with
  | nil => exact public_pure isPublic_emptyList
  | cons e rest ih =>
    unfold targets
    split
    · exact (ih free).bind fun ts hts => public_pure ((isPublic_cons _ ts).2 ⟨trivial, hts⟩)
    · next obj key l =>
      refine (public_hold obj free l).bind fun (o, free) ho => ?_
      refine (public_hold key free l).bind fun (k, free) hk => ?_
      exact (ih free).bind fun ts hts => public_pure ((isPublic_cons _ ts).2 ⟨⟨ho.1, hk.1⟩, hts⟩)
    · exact ih free

theorem public_storeAll {ts : List Target} (hts : IsPublic ts) (line : Nat) :
    Emit.Public (storeAll ts line) := by
  induction ts with
  | nil => exact public_pure trivial
  | cons t rest ih =>
    obtain ⟨ht, hrest⟩ := (isPublic_cons t rest).1 hts
    cases t with
    | «variable» p => exact (public_emit).bind fun _ _ => ih hrest
    | field o k origin =>
      exact (public_emit (by exact ⟨ht.1, ht.2, trivial⟩)).bind fun _ _ => ih hrest

theorem public_assignment (ts exprs : List Expr) (free line : Nat) :
    Emit.Public (assignment ts exprs free line) := by
  unfold assignment
  split
  · next p name e => exact (public_value e line).bind fun _ _ => public_emit
  · next obj key l e =>
    exact (public_operand obj l).bind fun _ ho => (public_operand key l).bind fun _ hk =>
      (public_operand e line).bind fun _ hv => public_emit (by exact ⟨ho, hk, hv⟩)
  · refine (public_targets ts free line).bind fun ready hready => ?_
    refine (public_adjusted exprs ts.length line).bind fun _ _ => ?_
    exact public_storeAll (fun t ht => hready t (List.mem_reverse.1 ht)) line

theorem public_jumpUnless (cond : Expr) (label line : Nat) :
    Emit.Public (jumpUnless cond label line) :=
  (public_operand cond line).bind fun _ hc => public_emit (by exact hc)

/-! ## Statements -/

mutual

theorem public_statement (s : Stat) : Emit.Public (statement s) := by
  cases s with
  | locals first count exprs line =>
    exact (public_adjusted exprs count line).bind fun _ _ => public_declareAll first count line
  | toBeClosed slot name line => exact public_emit
  | assign ts exprs free line => exact public_assignment ts exprs free line
  | call e =>
    cases e with
    | call f args l => exact public_called f args l fun _ => public_emit
    | method obj name nameLine args l =>
      exact public_calledMethod obj name nameLine args l fun _ => public_emit
    | _ => exact public_pure trivial
  | close slot line => exact public_emit
  | block body => exact public_statements body
  | «while» cond body exit line =>
    exact public_newLabel.bind fun _ _ => (public_place _).bind fun _ _ =>
      (public_jumpUnless cond exit line).bind fun _ _ => (public_statements body).bind fun _ _ =>
        (public_emit).bind fun _ _ => public_place exit
  | «repeat» body cond level closes exit line =>
    refine public_newLabel.bind fun top _ => (public_place top).bind fun _ _ =>
      (public_statements body).bind fun _ _ => ?_
    simp only
    split
    · exact (public_value cond line).bind fun _ _ => (public_emit).bind fun _ _ =>
        (public_emit).bind fun _ _ => public_place exit
    · exact (public_jumpUnless cond top line).bind fun _ _ => public_place exit
  | branch cond yes no line =>
    refine public_newLabel.bind fun otherwise _ => (public_jumpUnless cond otherwise line).bind
      fun _ _ => (public_statements yes).bind fun _ _ => public_ite (public_place otherwise) ?_
    exact public_newLabel.bind fun done _ => (public_emit).bind fun _ _ =>
      (public_place otherwise).bind fun _ _ => (public_statements no).bind fun _ _ =>
        public_place done
  | numericFor base start limit step body exit line =>
    refine (public_value start line).bind fun _ _ => (public_value limit line).bind fun _ _ =>
      (public_value step line).bind fun _ _ => (public_useSlot _).bind fun _ _ => ?_
    exact (public_emit).bind fun _ _ => public_newLabel.bind fun _ _ => (public_place _).bind fun _ _ =>
      (public_statements body).bind fun _ _ => (public_emit).bind fun _ _ => public_place exit
  | genericFor base count exprs body exit line =>
    refine (public_adjusted exprs 4 line).bind fun _ _ => (public_useSlot _).bind fun _ _ =>
      (public_emit).bind fun _ _ => public_newLabel.bind fun _ _ => public_newLabel.bind fun _ _ => ?_
    refine (public_emit).bind fun _ _ => (public_place _).bind fun _ _ =>
      (public_statements body).bind fun _ _ => (public_place _).bind fun _ _ => ?_
    exact (public_emit).bind fun _ _ => (public_emit).bind fun _ _ => (public_emit).bind fun _ _ =>
      (public_place exit).bind fun _ _ => public_emit
  | localFunction slot index line =>
    exact (public_emit).bind fun _ _ => (public_declare slot line).bind fun _ _ =>
      (public_emit).bind fun _ _ => public_emit
  | «return» exprs tail line =>
    unfold statement
    split
    · next f args l =>
      exact public_called f args l fun _ => (public_emit).bind fun _ _ => public_emit
    · next obj name nameLine args l =>
      exact public_calledMethod obj name nameLine args l fun _ => (public_emit).bind fun _ _ => public_emit
    · exact (public_arguments _ 0 line).bind fun _ _ => public_emit
  | goto id line =>
    refine Emit.Public.bind (fun s hs => ⟨hs, trivial⟩ : @Emit.Public State (noValues State) get)
      fun s _ => ?_
    split
    · exact public_ite ((public_emit).bind fun _ _ => public_emit) public_emit
    · exact public_pure trivial
  | label id => exact public_place id

theorem public_statements (ss : List Stat) : Emit.Public (statements ss) :=
  match ss with
  | [] => public_pure trivial
  | s :: rest => (public_statement s).bind fun _ _ => public_statements rest

end

/-! ## Functions -/

theorem public_link (targets : Array Nat) {i : Instr} (hi : i.Public) : (link targets i).Public := by
  cases i <;> exact hi

/-- Every function of a program is public. -/
theorem public_compile (p : Program) : ∀ proto ∈ (compile p).protos, proto.Public := by
  intro proto hproto i hi
  obtain ⟨f, -, rfl⟩ := Array.mem_map.1 hproto
  obtain ⟨j, hj, rfl⟩ := Array.mem_map.1 hi
  refine public_link _ ?_
  have hend : Emit.Public (emit (.return 0 false) f.endLine) := public_emit
  have hwrite := (public_statements f.body).bind fun _ _ => hend
  exact (hwrite _ fun i hi => by simp at hi).1 j hj

end Compiler

end ScriptWarden.Lua
