import TraceWeave.Pass.Walk
import TraceWeave.Program.Nodes

/-! # What the nodes of a program show

A node shows some labels of its own, such as the descriptors that it names, whatever is below it.
If all labels of a program are known before a transformation, they are known after it. What counts
as known may grow with the state that a transformation carries through the tree.

`Labels` are a way to read nodes, `Knowledge` what is known in a state, and `Knowledge.Keeps` the
judgement on a step. `filesWalk_keeps` carries it over a walk; the descriptors that nodes name are
one kind of labels (`Labels.refs`).
-/

namespace TraceWeave

/-- What is left of a node without the nodes below it. -/
inductive Shell where
  | decl (head : DeclHead) (function : Option FunctionHead)
  | var (id : VarId)
  | block (id : BlockId)
  | descriptor (ref : DescriptorRef)
  | capture (capture : FrameCapture)
  | code

def Node.shell : Node → Shell
  | .decl (.function head info _ _) => .decl head (some info)
  | .decl d => .decl d.head none
  | .param head => .var head.id
  | .var head => .var head.id
  | .expr (.returnable _ id _) => .block id
  | .expr (.descriptor _ ref) => .descriptor ref
  | .expr (.captureFrame _ capture) => .capture capture
  | .expr _ => .code

/-- A way to read labels off nodes without a look below them. Plain code has none. -/
structure Labels (ρ : Type) where
  label : Node → List ρ
  shallow : ∀ {n n' : Node}, n'.shell = n.shell → label n' = label n
  code : ∀ {n : Node}, n.shell = .code → label n = []

/-- Nodes that show known labels only. -/
def Labels.Within {ρ : Type} (L : Labels ρ) (known : ρ → Prop) (nodes : List Node) : Prop :=
  ∀ r ∈ nodes.flatMap L.label, known r

/-- What is known of a node is known of one that differs from it below only. -/
theorem Labels.known_of_shell {ρ : Type} {L : Labels ρ} {known : ρ → Prop} {n n' : Node}
    (hn : ∀ r ∈ L.label n, known r) (h : n'.shell = n.shell := by rfl) :
    ∀ r ∈ L.label n', known r := by
  rw [L.shallow h]
  exact hn

namespace Labels.Within

variable {ρ : Type} {L : Labels ρ} {known known' : ρ → Prop} {xs ys : List Node}

theorem nil : L.Within known [] := by
  intro r hr
  cases hr

theorem append_iff : L.Within known (xs ++ ys) ↔ L.Within known xs ∧ L.Within known ys := by
  unfold Within
  rw [List.flatMap_append]
  exact List.forall_mem_append

theorem append (hx : L.Within known xs) (hy : L.Within known ys) : L.Within known (xs ++ ys) :=
  append_iff.mpr ⟨hx, hy⟩

theorem cons_iff {n : Node} : L.Within known (n :: ys) ↔
    (∀ r ∈ L.label n, known r) ∧ L.Within known ys := by
  unfold Within
  rw [List.flatMap_cons]
  exact List.forall_mem_append

/-- Plain code around nodes shows nothing more. -/
theorem code_iff {n : Node} (hn : n.shell = .code) :
    L.Within known (n :: ys) ↔ L.Within known ys := by
  rw [cons_iff, L.code hn]
  exact and_iff_right (by simp)

theorem mono (h : L.Within known xs) (hknown : ∀ r, known r → known' r) : L.Within known' xs :=
  fun r hr => hknown r (h r hr)

end Labels.Within

/-! ## References -/

/-- The handles inside a frame capture. -/
def FrameCapture.refs (c : FrameCapture) : List DescriptorRef :=
  c.location.toRef :: c.entries.map fun entry => entry.info.toRef

/-- The references that an expression holds itself. -/
def Expr.ownRefs : Expr → List DescriptorRef
  | .descriptor _ ref => [ref]
  | .captureFrame _ capture => capture.refs
  | _ => []

def Node.refs : Node → List DescriptorRef
  | .expr e => e.ownRefs
  | .decl _ | .param _ | .var _ => []

/-- The references in nodes. -/
def refsOf (nodes : List Node) : List DescriptorRef := nodes.flatMap Node.refs

@[simp] theorem refsOf_nil : refsOf [] = [] := rfl

@[simp] theorem refsOf_cons (n : Node) (nodes : List Node) :
    refsOf (n :: nodes) = n.refs ++ refsOf nodes := List.flatMap_cons

@[simp] theorem refsOf_append (xs ys : List Node) : refsOf (xs ++ ys) = refsOf xs ++ refsOf ys :=
  List.flatMap_append

/-- The references in a module. -/
def Module.refs (m : Module) : List DescriptorRef := refsOf m.nodes

/-- The descriptors that nodes name as their labels. -/
def Labels.refs : Labels DescriptorRef where
  label := Node.refs
  shallow {n n'} h := by
    have hrefs : ∀ n : Node, n.refs = match n.shell with
        | .descriptor ref => [ref]
        | .capture capture => capture.refs
        | _ => [] := by
      rintro (d | _ | _ | e)
      · cases d <;> rfl
      · rfl
      · rfl
      · cases e <;> rfl
    rw [hrefs, hrefs, h]
  code {n} h := by
    rcases n with d | _ | _ | e
    · rfl
    · rfl
    · rfl
    · cases e <;> first | rfl | cases h

/-- Nodes that refer to known descriptors only. -/
abbrev RefersTo (known : DescriptorRef → Prop) (nodes : List Node) : Prop :=
  Labels.refs.Within known nodes

namespace RefersTo

variable {known known' : DescriptorRef → Prop} {xs ys : List Node}

theorem nil : RefersTo known [] := Labels.Within.nil

theorem append_iff : RefersTo known (xs ++ ys) ↔ RefersTo known xs ∧ RefersTo known ys :=
  Labels.Within.append_iff

theorem append (hx : RefersTo known xs) (hy : RefersTo known ys) : RefersTo known (xs ++ ys) :=
  append_iff.mpr ⟨hx, hy⟩

theorem cons_iff {n : Node} (hn : n.refs = []) : RefersTo known (n :: ys) ↔ RefersTo known ys := by
  change (∀ r ∈ refsOf (n :: ys), known r) ↔ ∀ r ∈ refsOf ys, known r
  rw [refsOf_cons, hn, List.nil_append]

theorem mono (h : RefersTo known xs) (hknown : ∀ r, known r → known' r) : RefersTo known' xs :=
  Labels.Within.mono h hknown

end RefersTo

/-! ## Transformations -/

/-- What a transformation with states `σ` relies on, and which labels it knows in a state. -/
structure Knowledge (σ ρ : Type) extends Labels ρ where
  good : σ → Prop
  known : σ → ρ → Prop

variable {σ ρ : Type} {K : Knowledge σ ρ}

/-- From one state to another, nodes with known labels become nodes with known labels. -/
def Knowledge.Keeps (K : Knowledge σ ρ) (st st' : σ) (before after : List Node) : Prop :=
  K.good st → K.Within (K.known st) before →
    K.good st' ∧ (∀ r, K.known st r → K.known st' r) ∧ K.Within (K.known st') after

namespace Knowledge.Keeps

variable {st st' st'' : σ} {as bs cs ds : List Node}

theorem same : K.Keeps st st as as := fun hgood hrefs => ⟨hgood, fun _ hr => hr, hrefs⟩

/-- Nodes that are taken out. -/
theorem drop : K.Keeps st st as [] := fun hgood _ => ⟨hgood, fun _ hr => hr, .nil⟩

/-- One transformation after the other on the same nodes. -/
theorem seq (h : K.Keeps st st' as bs) (h' : K.Keeps st' st'' bs cs) : K.Keeps st st'' as cs := by
  intro hgood hrefs
  obtain ⟨hgood, hmono, hrefs⟩ := h hgood hrefs
  obtain ⟨hgood, hmono', hrefs⟩ := h' hgood hrefs
  exact ⟨hgood, fun r hr => hmono' r (hmono r hr), hrefs⟩

/-- One transformation after the other on nodes next to each other. -/
theorem append (h : K.Keeps st st' as bs) (h' : K.Keeps st' st'' cs ds) :
    K.Keeps st st'' (as ++ cs) (bs ++ ds) := by
  intro hgood hrefs
  obtain ⟨ha, hc⟩ := Labels.Within.append_iff.mp hrefs
  obtain ⟨hgood, hmono, hb⟩ := h hgood ha
  obtain ⟨hgood, hmono', hd⟩ := h' hgood (hc.mono hmono)
  exact ⟨hgood, fun r hr => hmono' r (hmono r hr), (hb.mono hmono').append hd⟩

/-- A node with the same labels around the nodes that are transformed. -/
theorem around {n n' : Node} (h : K.Keeps st st' as bs) (hn : K.label n' = K.label n) :
    K.Keeps st st' (n :: as) (n' :: bs) := by
  intro hgood hrefs
  obtain ⟨hown, has⟩ := Labels.Within.cons_iff.mp hrefs
  obtain ⟨hgood, hmono, hb⟩ := h hgood has
  refine ⟨hgood, hmono, Labels.Within.cons_iff.mpr ⟨fun r hr => hmono r (hown r ?_), hb⟩⟩
  rwa [← hn]

/-- A node around the nodes that are transformed, which is the same apart from them. -/
theorem cons {n n' : Node} (h : K.Keeps st st' as bs)
    (hn : n'.shell = n.shell := by rfl) : K.Keeps st st' (n :: as) (n' :: bs) :=
  h.around (K.shallow hn)

end Knowledge.Keeps

/-- A visitor whose visits all keep nodes to known labels. -/
structure Visitor.Keeps (v : Visitor σ) (K : Knowledge σ ρ) : Prop where
  onExpr : ∀ sc place e st,
    K.Keeps st (v.onExpr sc place e st).2 e.nodes (v.onExpr sc place e st).1.nodes
  onDecl : ∀ sc d st, K.Keeps st (v.onDecl sc d st).2 d.nodes (v.onDecl sc d st).1.nodes

variable {v : Visitor σ}

mutual

theorem Expr.walk_keeps (hv : v.Keeps K) : ∀ (e : Expr) (sc : ScopeStack) (place : Place) (st : σ),
    K.Keeps st (e.walk v sc place st).2 e.nodes (e.walk v sc place st).1.nodes
  | .setVar _ _ value => fun sc place st => by
    rw [Expr.walk]
    exact ((value.walk_keeps hv _ _ _).cons).seq (hv.onExpr _ _ _ _)
  | .call _ _ receiver _ args => fun sc place st => by
    rw [Expr.walk]
    exact (((optionWalk_keeps hv receiver _ _ _).append (argsWalk_keeps hv args _ _)).cons).seq
      (hv.onExpr _ _ _ _)
  | .block _ stmts => fun sc place st => by
    rw [Expr.walk]
    exact ((stmtsWalk_keeps hv stmts _ _).cons).seq (hv.onExpr _ _ _ _)
  | .returnable _ _ stmts => fun sc place st => by
    rw [Expr.walk]
    exact ((stmtsWalk_keeps hv stmts _ _).cons).seq (hv.onExpr _ _ _ _)
  | .ret _ _ value => fun sc place st => by
    rw [Expr.walk]
    exact ((value.walk_keeps hv _ _ _).cons).seq (hv.onExpr _ _ _ _)
  | .when _ branches otherwise => fun sc place st => by
    rw [Expr.walk]
    exact (((branchesWalk_keeps hv branches _ _).append
      (optionWalk_keeps hv otherwise _ _ _)).cons).seq (hv.onExpr _ _ _ _)
  | .loop _ condition body => fun sc place st => by
    rw [Expr.walk]
    exact (((condition.walk_keeps hv _ _ _).append (body.walk_keeps hv _ _ _)).cons).seq
      (hv.onExpr _ _ _ _)
  | .binary _ _ lhs rhs => fun sc place st => by
    rw [Expr.walk]
    exact (((lhs.walk_keeps hv _ _ _).append (rhs.walk_keeps hv _ _ _)).cons).seq
      (hv.onExpr _ _ _ _)
  | .not _ operand => fun sc place st => by
    rw [Expr.walk]
    exact ((operand.walk_keeps hv _ _ _).cons).seq (hv.onExpr _ _ _ _)
  | .concat _ parts => fun sc place st => by
    rw [Expr.walk]
    exact ((exprsWalk_keeps hv parts _ _).cons).seq (hv.onExpr _ _ _ _)
  | .lambda _ decl => fun sc place st => by
    rw [Expr.walk]
    exact ((decl.walk_keeps hv _ _).cons).seq (hv.onExpr _ _ _ _)
  | .const _ _ | .getVar _ _ | .functionRef _ _ | .propertyRef _ _ | .descriptor _ _
  | .captureFrame _ _ => fun sc place st => by
    rw [Expr.walk]
    exact hv.onExpr _ _ _ _

theorem optionWalk_keeps (hv : v.Keeps K) : ∀ (e : Option Expr) (sc : ScopeStack) (place : Place)
    (st : σ), K.Keeps st (optionWalk v sc place e st).2 (optionNodes e)
      (optionNodes (optionWalk v sc place e st).1)
  | none => fun _ _ _ => .same
  | some e => fun sc place st => e.walk_keeps hv sc place st

theorem argsWalk_keeps (hv : v.Keeps K) : ∀ (args : List (Option Expr)) (sc : ScopeStack) (st : σ),
    K.Keeps st (argsWalk v sc args st).2 (argsNodes args) (argsNodes (argsWalk v sc args st).1)
  | [] => fun _ _ => .same
  | none :: args => fun sc st => argsWalk_keeps hv args sc st
  | some e :: args => fun _ _ => (e.walk_keeps hv _ _ _).append (argsWalk_keeps hv args _ _)

theorem exprsWalk_keeps (hv : v.Keeps K) : ∀ (es : List Expr) (sc : ScopeStack) (st : σ),
    K.Keeps st (exprsWalk v sc es st).2 (exprsNodes es) (exprsNodes (exprsWalk v sc es st).1)
  | [] => fun _ _ => .same
  | e :: es => fun _ _ => (e.walk_keeps hv _ _ _).append (exprsWalk_keeps hv es _ _)

theorem branchesWalk_keeps (hv : v.Keeps K) : ∀ (branches : List (Expr × Expr)) (sc : ScopeStack)
    (st : σ), K.Keeps st (branchesWalk v sc branches st).2 (branchesNodes branches)
      (branchesNodes (branchesWalk v sc branches st).1)
  | [] => fun _ _ => .same
  | (condition, result) :: branches => fun _ _ =>
    ((condition.walk_keeps hv _ _ _).append (result.walk_keeps hv _ _ _)).append
      (branchesWalk_keeps hv branches _ _)

theorem stmtsWalk_keeps (hv : v.Keeps K) : ∀ (stmts : List Stmt) (sc : ScopeStack) (st : σ),
    K.Keeps st (stmtsWalk v sc stmts st).2 (stmtsNodes stmts)
      (stmtsNodes (stmtsWalk v sc stmts st).1)
  | [] => fun _ _ => .same
  | stmt :: stmts => fun _ _ => (stmt.walk_keeps hv _ _).append (stmtsWalk_keeps hv stmts _ _)

theorem Stmt.walk_keeps (hv : v.Keeps K) : ∀ (stmt : Stmt) (sc : ScopeStack) (st : σ),
    K.Keeps st (stmt.walk v sc st).2 stmt.nodes (stmt.walk v sc st).1.nodes
  | .expr e => fun _ _ => e.walk_keeps hv _ _ _
  | .var _ init => fun _ _ => (optionWalk_keeps hv init _ _ _).cons
  | .decl d => fun _ _ => d.walk_keeps hv _ _

theorem paramsWalk_keeps (hv : v.Keeps K) : ∀ (params : List Param) (sc : ScopeStack) (st : σ),
    K.Keeps st (paramsWalk v sc params st).2 (paramsNodes params)
      (paramsNodes (paramsWalk v sc params st).1)
  | [] => fun _ _ => .same
  | ⟨_, default⟩ :: params => fun _ _ =>
    ((optionWalk_keeps hv default _ _ _).append (paramsWalk_keeps hv params _ _)).cons

theorem Body.walk_keeps (hv : v.Keeps K) : ∀ (body : Body) (sc : ScopeStack) (st : σ),
    K.Keeps st (body.walk v sc st).2 body.nodes (body.walk v sc st).1.nodes
  | .absent => fun _ _ => .same
  | .block stmts => fun _ _ => stmtsWalk_keeps hv stmts _ _
  | .expression e => fun _ _ => e.walk_keeps hv _ _ _

theorem Decl.walk_keeps (hv : v.Keeps K) : ∀ (d : Decl) (sc : ScopeStack) (st : σ),
    K.Keeps st (d.walk v sc st).2 d.nodes (d.walk v sc st).1.nodes
  | .classDecl _ _ members => fun sc st => by
    rw [Decl.walk]
    exact ((declsWalk_keeps hv members _ _).cons).seq (hv.onDecl _ _ _)
  | .function _ _ params body => fun sc st => by
    rw [Decl.walk]
    exact (((paramsWalk_keeps hv params _ _).append (body.walk_keeps hv _ _)).cons).seq
      (hv.onDecl _ _ _)
  | .property _ _ backing getter setter => fun sc st => by
    rw [Decl.walk]
    exact ((((accessorWalk_keeps hv backing _ _).append (accessorWalk_keeps hv getter _ _)).append
      (accessorWalk_keeps hv setter _ _)).cons).seq (hv.onDecl _ _ _)
  | .field _ _ init => fun sc st => by
    rw [Decl.walk]
    exact ((optionWalk_keeps hv init _ _ _).cons).seq (hv.onDecl _ _ _)
  | .initializer _ body => fun sc st => by
    rw [Decl.walk]
    exact ((stmtsWalk_keeps hv body _ _).cons).seq (hv.onDecl _ _ _)

theorem accessorWalk_keeps (hv : v.Keeps K) : ∀ (d : Option Decl) (sc : ScopeStack) (st : σ),
    K.Keeps st (accessorWalk v sc d st).2 (accessorNodes d)
      (accessorNodes (accessorWalk v sc d st).1)
  | none => fun _ _ => .same
  | some d => fun sc st => d.walk_keeps hv sc st

theorem declsWalk_keeps (hv : v.Keeps K) : ∀ (ds : List Decl) (sc : ScopeStack) (st : σ),
    K.Keeps st (declsWalk v sc ds st).2 (declsNodes ds) (declsNodes (declsWalk v sc ds st).1)
  | [] => fun _ _ => .same
  | d :: ds => fun _ _ => (d.walk_keeps hv _ _).append (declsWalk_keeps hv ds _ _)

end

/-- The nodes of files. -/
def filesNodes (fs : List SourceFile) : List Node := fs.flatMap fun f => declsNodes f.declarations

theorem Module.nodes_eq (m : Module) : m.nodes = filesNodes m.files ++ filesNodes m.external :=
  List.flatMap_append

theorem filesWalk_keeps (hv : v.Keeps K) : ∀ (fs : List SourceFile) (st : σ),
    K.Keeps st (filesWalk v fs st).2 (filesNodes fs) (filesNodes (filesWalk v fs st).1)
  | [], _ => .same
  | f :: fs, _ => (declsWalk_keeps hv f.declarations _ _).append (filesWalk_keeps hv fs _)

end TraceWeave
