import TraceWeave.Proofs.Program.Scoped

/-! # Where code stands

Code stands in the body of a function, or it is run apart from one: the defaults of parameters,
the initial values of fields and the blocks of classes. In a body it can count on the parameters of
the function and on the variables of the statements before it, those of outer blocks first. A
lookout goes through a program and notes with all that it finds where it stands.

`Standing` is where code stands and `Lookout` what is looked for; `filesSpots` lists what is found
in files, and `Module.captures` all frame captures with their places.
-/

namespace TraceWeave

/-- The body that code stands in, and the variables that it can count on there. -/
structure Standing where
  function : DeclId
  vars : List VarId
  deriving DecidableEq

namespace Standing

/-- The start of the body of a function. -/
def start (id : DeclId) (params : List Param) : Standing := ⟨id, params.map fun p => p.head.id⟩

/-- What stands behind a statement can count on the variable that it declares. -/
def after (s : Standing) : Stmt → Standing
  | .var head _ => { s with vars := s.vars ++ [head.id] }
  | _ => s

end Standing

/-- What is looked for in a program. -/
structure Lookout (α : Type) where
  /-- What a call is noted as. If there is an answer, nothing below the call is looked at. -/
  call : Site → DeclId → Option (List α) := fun _ _ => none
  /-- What a frame capture is noted as. -/
  capture : Site → FrameCapture → List α := fun _ _ => []

section

variable {α : Type}

/-- What a call is noted as, or else what is found below it. -/
def Lookout.orBelow (l : Lookout α) (here : Option Standing) (s : Site) (callee : DeclId)
    (below : List (Option Standing × α)) : List (Option Standing × α) :=
  match l.call s callee with
  | some found => found.map (here, ·)
  | none => below

mutual

/-- What is found in an expression. -/
def Expr.spots (l : Lookout α) (here : Option Standing) : Expr → List (Option Standing × α)
  | .setVar _ _ value => value.spots l here
  | .call s callee receiver _ args =>
    l.orBelow here s callee (optionSpots l here receiver ++ argsSpots l here args)
  | .block _ stmts => stmtsSpots l here stmts
  | .returnable _ _ stmts => stmtsSpots l here stmts
  | .ret _ _ value => value.spots l here
  | .when _ branches otherwise => branchesSpots l here branches ++ optionSpots l here otherwise
  | .loop _ condition body => condition.spots l here ++ body.spots l here
  | .binary _ _ lhs rhs => lhs.spots l here ++ rhs.spots l here
  | .not _ operand => operand.spots l here
  | .concat _ parts => exprsSpots l here parts
  | .lambda _ decl => decl.spots l
  | .captureFrame s capture => (l.capture s capture).map (here, ·)
  | .const _ _ | .getVar _ _ | .functionRef _ _ | .propertyRef _ _ | .descriptor _ _ => []

def optionSpots (l : Lookout α) (here : Option Standing) :
    Option Expr → List (Option Standing × α)
  | none => []
  | some e => e.spots l here

def argsSpots (l : Lookout α) (here : Option Standing) :
    List (Option Expr) → List (Option Standing × α)
  | [] => []
  | none :: args => argsSpots l here args
  | some e :: args => e.spots l here ++ argsSpots l here args

def exprsSpots (l : Lookout α) (here : Option Standing) : List Expr → List (Option Standing × α)
  | [] => []
  | e :: es => e.spots l here ++ exprsSpots l here es

def branchesSpots (l : Lookout α) (here : Option Standing) :
    List (Expr × Expr) → List (Option Standing × α)
  | [] => []
  | (condition, result) :: branches =>
    condition.spots l here ++ result.spots l here ++ branchesSpots l here branches

def stmtsSpots (l : Lookout α) (here : Option Standing) : List Stmt → List (Option Standing × α)
  | [] => []
  | stmt :: stmts => stmt.spots l here ++ stmtsSpots l (here.map (·.after stmt)) stmts

def Stmt.spots (l : Lookout α) (here : Option Standing) : Stmt → List (Option Standing × α)
  | .expr e => e.spots l here
  | .var _ init => optionSpots l here init
  | .decl d => d.spots l

def paramsSpots (l : Lookout α) : List Param → List (Option Standing × α)
  | [] => []
  | ⟨_, default⟩ :: params => optionSpots l none default ++ paramsSpots l params

def Body.spots (l : Lookout α) (here : Option Standing) : Body → List (Option Standing × α)
  | .absent => []
  | .block stmts => stmtsSpots l here stmts
  | .expression e => e.spots l here

/-- What is found in a declaration. Where it is declared does not matter to its code. -/
def Decl.spots (l : Lookout α) : Decl → List (Option Standing × α)
  | .classDecl _ _ members => declsSpots l members
  | .function head _ params body =>
    paramsSpots l params ++ body.spots l (some (.start head.id params))
  | .property _ _ backing getter setter =>
    accessorSpots l backing ++ accessorSpots l getter ++ accessorSpots l setter
  | .field _ _ init => optionSpots l none init
  | .initializer _ body => stmtsSpots l none body

def accessorSpots (l : Lookout α) : Option Decl → List (Option Standing × α)
  | none => []
  | some d => d.spots l

def declsSpots (l : Lookout α) : List Decl → List (Option Standing × α)
  | [] => []
  | d :: ds => d.spots l ++ declsSpots l ds

end

/-- What is found in files. -/
def filesSpots (l : Lookout α) (fs : List SourceFile) : List (Option Standing × α) :=
  fs.flatMap fun f => declsSpots l f.declarations

theorem stmtsSpots_append (l : Lookout α) : ∀ (xs ys : List Stmt) (here : Option Standing),
    stmtsSpots l here (xs ++ ys) =
      stmtsSpots l here xs ++ stmtsSpots l (xs.foldl (fun s x => s.map (·.after x)) here) ys
  | [], _, _ => rfl
  | x :: xs, ys, here => by
    rw [List.cons_append, stmtsSpots, stmtsSpots, stmtsSpots_append l xs ys, List.append_assoc]
    rfl

end

/-! ## Captures -/

/-- The variables that a capture lists. -/
def FrameCapture.vars (c : FrameCapture) : List VarId := c.entries.map CapturedLocal.var

/-- Looks for all frame captures. -/
def Lookout.captures : Lookout (Site × FrameCapture) where
  capture s c := [(s, c)]

/-- The frame captures of a module with the places that they stand at. -/
def Module.captures (m : Module) : List (Option Standing × Site × FrameCapture) :=
  filesSpots .captures m.allFiles

def Node.capture? : Node → Option (Site × FrameCapture)
  | .expr (.captureFrame s c) => some (s, c)
  | _ => none

/-- Whether there are frame captures among nodes is found by looking for them. -/
theorem captureFrame_notMem {nodes : List Node} (h : nodes.filterMap Node.capture? = []) (site : Site)
    (capture : FrameCapture) : .expr (.captureFrame site capture) ∉ nodes :=
  fun hmem => nomatch List.filterMap_eq_nil_iff.mp h _ hmem

/-- A list of what was found in nodes: it has all captures in order, and those that are found in a
declaration among the nodes. -/
structure Locates (nodes : List Node) (found : List (Option Standing × Site × FrameCapture)) :
    Prop where
  captures : found.map Prod.snd = nodes.filterMap Node.capture?
  decls : ∀ d ∈ declsOf nodes, d.spots .captures ⊆ found

namespace Locates

variable {ns ms : List Node} {xs ys : List (Option Standing × Site × FrameCapture)}

theorem nil : Locates [] [] := ⟨rfl, nofun⟩

theorem append (hx : Locates ns xs) (hy : Locates ms ys) : Locates (ns ++ ms) (xs ++ ys) := by
  constructor
  · rw [List.map_append, List.filterMap_append, hx.captures, hy.captures]
  · intro d hd
    rw [declsOf_append, List.mem_append] at hd
    obtain hd | hd := hd
    · exact List.subset_append_of_subset_left _ (hx.decls d hd)
    · exact List.subset_append_of_subset_right _ (hy.decls d hd)

/-- Code around nodes that is neither a capture nor a declaration. -/
theorem code (h : Locates ns xs) {n : Node} (hc : n.capture? = none := by rfl)
    (hd : n.decl? = none := by rfl) : Locates (n :: ns) xs := by
  constructor
  · rw [h.captures, List.filterMap_cons_none hc]
  · intro d hmem
    unfold declsOf at hmem
    rw [List.filterMap_cons_none hd] at hmem
    exact h.decls d hmem

theorem decl {d : Decl} (h : Locates ns (d.spots .captures)) :
    Locates (.decl d :: ns) (d.spots .captures) := by
  constructor
  · rw [h.captures, List.filterMap_cons_none rfl]
  · intro d' hd
    rw [declsOf_decl, List.mem_cons] at hd
    obtain rfl | hd := hd
    · exact List.Subset.refl _
    · exact h.decls d' hd

end Locates

mutual

theorem Expr.locates : ∀ (e : Expr) (here : Option Standing),
    Locates e.nodes (e.spots .captures here)
  | .setVar _ _ value, here => (value.locates here).code
  | .call _ _ receiver _ args, here =>
    ((option_locates receiver here).append (args_locates args here)).code
  | .block _ stmts, here | .returnable _ _ stmts, here => (stmts_locates stmts here).code
  | .ret _ _ value, here => (value.locates here).code
  | .when _ branches otherwise, here =>
    ((branches_locates branches here).append (option_locates otherwise here)).code
  | .loop _ condition body, here => ((condition.locates here).append (body.locates here)).code
  | .binary _ _ lhs rhs, here => ((lhs.locates here).append (rhs.locates here)).code
  | .not _ operand, here => (operand.locates here).code
  | .concat _ parts, here => (exprs_locates parts here).code
  | .lambda _ decl, here => decl.locates.code
  | .captureFrame _ _, _ => ⟨rfl, nofun⟩
  | .const _ _, _ | .getVar _ _, _ | .functionRef _ _, _ | .propertyRef _ _, _
  | .descriptor _ _, _ => Locates.nil.code

theorem option_locates : ∀ (e : Option Expr) (here : Option Standing),
    Locates (optionNodes e) (optionSpots .captures here e)
  | none, _ => .nil
  | some e, here => e.locates here

theorem args_locates : ∀ (args : List (Option Expr)) (here : Option Standing),
    Locates (argsNodes args) (argsSpots .captures here args)
  | [], _ => .nil
  | none :: args, here => args_locates args here
  | some e :: args, here => (e.locates here).append (args_locates args here)

theorem exprs_locates : ∀ (es : List Expr) (here : Option Standing),
    Locates (exprsNodes es) (exprsSpots .captures here es)
  | [], _ => .nil
  | e :: es, here => (e.locates here).append (exprs_locates es here)

theorem branches_locates : ∀ (branches : List (Expr × Expr)) (here : Option Standing),
    Locates (branchesNodes branches) (branchesSpots .captures here branches)
  | [], _ => .nil
  | (condition, result) :: branches, here =>
    ((condition.locates here).append (result.locates here)).append (branches_locates branches here)

theorem stmts_locates : ∀ (stmts : List Stmt) (here : Option Standing),
    Locates (stmtsNodes stmts) (stmtsSpots .captures here stmts)
  | [], _ => .nil
  | stmt :: stmts, here => (stmt.locates here).append (stmts_locates stmts _)

theorem Stmt.locates : ∀ (stmt : Stmt) (here : Option Standing),
    Locates stmt.nodes (stmt.spots .captures here)
  | .expr e, here => e.locates here
  | .var _ init, here => (option_locates init here).code
  | .decl d, _ => d.locates

theorem params_locates : ∀ params : List Param,
    Locates (paramsNodes params) (paramsSpots .captures params)
  | [] => .nil
  | ⟨_, default⟩ :: params => ((option_locates default none).append (params_locates params)).code

theorem Body.locates : ∀ (body : Body) (here : Option Standing),
    Locates body.nodes (body.spots .captures here)
  | .absent, _ => .nil
  | .block stmts, here => stmts_locates stmts here
  | .expression e, here => e.locates here

theorem Decl.locates : ∀ d : Decl, Locates d.nodes (d.spots .captures)
  | .classDecl _ _ members => (decls_locates members).decl
  | .function _ _ params body => ((params_locates params).append (body.locates _)).decl
  | .property _ _ backing getter setter =>
    (((accessor_locates backing).append (accessor_locates getter)).append
      (accessor_locates setter)).decl
  | .field _ _ init => (option_locates init none).decl
  | .initializer _ body => (stmts_locates body none).decl

theorem accessor_locates : ∀ d : Option Decl,
    Locates (accessorNodes d) (accessorSpots .captures d)
  | none => .nil
  | some d => d.locates

theorem decls_locates : ∀ ds : List Decl, Locates (declsNodes ds) (declsSpots .captures ds)
  | [] => .nil
  | d :: ds => d.locates.append (decls_locates ds)

end

theorem files_locates : ∀ fs : List SourceFile,
    Locates (fs.flatMap fun f => declsNodes f.declarations) (filesSpots .captures fs)
  | [] => .nil
  | f :: fs => (decls_locates f.declarations).append (files_locates fs)

/-- The captures of own files come before those of external ones. -/
theorem Module.captures_eq (m : Module) : m.captures =
    filesSpots .captures m.files ++ filesSpots .captures m.external := by
  unfold captures filesSpots allFiles
  exact List.flatMap_append

theorem Module.locates (m : Module) : Locates m.nodes m.captures := files_locates m.allFiles

end TraceWeave
