import OriSyntax.Proofs.Pieces

/-!
Walks taken apart: what a walk meets at a node is the node and then, side by side, what
it meets at its parts.
-/

namespace OriSyntax

/-- The nodes met in a type. -/
def TypeExpr.visits (type : TypeExpr) : List Visit := type.walk []

/-- The nodes met in an expression, itself first. -/
def Expr.visits (expr : Expr) : List Visit := expr.walk []

/-- The nodes met in what may be missing. -/
def visitsOf? {α : Type} (visits : α → List Visit) : Option α → List Visit
  | none => []
  | some part => visits part

@[simp] theorem visitsOf?_none {α : Type} (visits : α → List Visit) :
    visitsOf? visits none = [] := rfl

@[simp] theorem visitsOf?_some {α : Type} (visits : α → List Visit) (part : α) :
    visitsOf? visits (some part) = visits part := rfl

/-- What a walk finds in items that it visits one after the other. -/
theorem foldr_walk {α : Type} {walk : α → List Visit → List Visit} (visits : α → List Visit)
    (hwalk : ∀ item rest, walk item rest = visits item ++ rest) (rest : List Visit)
    (items : List α) : items.foldr walk rest = items.flatMap visits ++ rest := by
  induction items with
  | nil => rfl
  | cons item others ih =>
      rw [List.foldr_cons, hwalk, ih, List.flatMap_cons, List.append_assoc]

theorem TypeExpr.walk_eq (rest : List Visit) (type : TypeExpr) :
    type.walk rest = type.visits ++ rest := by
  cases type <;> rfl

mutual

theorem Expr.walk_eq (rest : List Visit) (expr : Expr) :
    expr.walk rest = expr.visits ++ rest := by
  unfold Expr.visits
  match expr with
  | .ident _ | .literal .. | .bad _ => rfl
  | .paren _ inner _ | .unary _ inner | .selector inner _ _ =>
      rw [Expr.walk, Expr.walk, inner.walk_eq rest, inner.walk_eq []]
      simp
  | .binary left _ right | .index left _ right _ =>
      rw [Expr.walk, Expr.walk, left.walk_eq, right.walk_eq, left.walk_eq (right.walk []),
        right.walk_eq []]
      simp
  | .call callee ⟨_, args, _⟩ =>
      rw [Expr.walk, Expr.walk, callee.walk_eq, Expr.walkAll_eq rest args,
        callee.walk_eq (Expr.walkAll [] args), Expr.walkAll_eq [] args]
      simp

theorem Expr.walkAll_eq (rest : List Visit) (exprs : List Expr) :
    Expr.walkAll rest exprs = exprs.flatMap Expr.visits ++ rest := by
  match exprs with
  | [] => rfl
  | expr :: others =>
      rw [Expr.walkAll, expr.walk_eq, Expr.walkAll_eq rest others]
      simp

end

namespace Expr

theorem walk?_eq (rest : List Visit) (expr : Option Expr) :
    Expr.walk? rest expr = visitsOf? visits expr ++ rest := by
  cases expr with
  | none => rfl
  | some expr => exact expr.walk_eq rest

@[simp] theorem visits_ident (name : Token) : (ident name).visits = [.expr (ident name)] := rfl

@[simp] theorem visits_literal (sort : LiteralSort) (value : Token) :
    (literal sort value).visits = [.expr (literal sort value)] := rfl

@[simp] theorem visits_paren (opening : Token) (inner : Expr) (closing : Token) :
    (paren opening inner closing).visits =
      .expr (paren opening inner closing) :: inner.visits := by
  rw [visits, walk]
  rfl

@[simp] theorem visits_unary (op : Token) (operand : Expr) :
    (unary op operand).visits = .expr (unary op operand) :: operand.visits := by
  rw [visits, walk]
  rfl

@[simp] theorem visits_binary (left : Expr) (op : Token) (right : Expr) :
    (binary left op right).visits =
      .expr (binary left op right) :: (left.visits ++ right.visits) := by
  rw [visits, walk, left.walk_eq]
  rfl

@[simp] theorem visits_selector (base : Expr) (dot name : Token) :
    (selector base dot name).visits = .expr (selector base dot name) :: base.visits := by
  rw [visits, walk]
  rfl

@[simp] theorem visits_index (base : Expr) (opening : Token) (inner : Expr) (closing : Token) :
    (index base opening inner closing).visits =
      .expr (index base opening inner closing) :: (base.visits ++ inner.visits) := by
  rw [visits, walk, base.walk_eq]
  rfl

@[simp] theorem visits_call (callee : Expr) (args : Enclosed Expr) :
    (call callee args).visits =
      .expr (call callee args) :: (callee.visits ++ args.items.flatMap visits) := by
  obtain ⟨_, items, _⟩ := args
  rw [visits, walk, callee.walk_eq, walkAll_eq, List.append_nil]

@[simp] theorem visits_bad (node : BadNode) :
    (bad node).visits = [.expr (bad node), .bad node] := rfl

end Expr

/-- The nodes met in parameters: their types. -/
def ParamList.visits (params : ParamList) : List Visit :=
  params.items.flatMap fun param => param.type.visits

theorem ParamList.walk_eq (rest : List Visit) (params : ParamList) :
    ParamList.walk rest params = ParamList.visits params ++ rest := by
  apply foldr_walk fun param : Param => param.type.visits
  intro param rest
  exact param.type.walk_eq rest

/-- The nodes met in results. -/
def Results.visits : Results → List Visit
  | single type => type.visits
  | list params => ParamList.visits params

theorem Results.walk?_eq (rest : List Visit) (results : Option Results) :
    Results.walk? rest results = visitsOf? Results.visits results ++ rest := by
  match results with
  | none => rfl
  | some (.single type) => exact type.walk_eq rest
  | some (.list params) => exact ParamList.walk_eq rest params

/-- The nodes met in a value declaration. -/
def ValueDecl.visits (decl : ValueDecl) : List Visit :=
  visitsOf? TypeExpr.visits decl.type ++ decl.value.visits

theorem ValueDecl.walk_eq (rest : List Visit) (decl : ValueDecl) :
    decl.walk rest = decl.visits ++ rest := by
  unfold ValueDecl.walk ValueDecl.visits
  split
  · next htype => rw [decl.value.walk_eq, htype, visitsOf?_none, List.nil_append]
  · next type htype =>
      rw [type.walk_eq, decl.value.walk_eq, htype, visitsOf?_some, List.append_assoc]

/-- The nodes met in a field: its type and its default value. -/
def FieldDecl.visits (field : FieldDecl) : List Visit :=
  field.type.visits ++ visitsOf? (fun default => default.value.visits) field.default

/-- The nodes met in a member of an interface. -/
def InterfaceMember.visits : InterfaceMember → List Visit
  | method spec => ParamList.visits spec.params ++ visitsOf? Results.visits spec.results
  | embed _ => []

/-- The nodes met in a variant. -/
def SumVariant.visits (variant : SumVariant) : List Visit :=
  visitsOf? ParamList.visits variant.params

theorem StructDecl.walk_eq (rest : List Visit) (decl : StructDecl) :
    StructDecl.walk rest decl = decl.body.items.flatMap FieldDecl.visits ++ rest := by
  apply foldr_walk FieldDecl.visits
  intro field rest
  rw [field.type.walk_eq, Expr.walk?_eq, FieldDecl.visits, List.append_assoc]
  cases field.default <;> rfl

theorem InterfaceDecl.walk_eq (rest : List Visit) (decl : InterfaceDecl) :
    InterfaceDecl.walk rest decl =
      decl.body.items.flatMap InterfaceMember.visits ++ rest := by
  apply foldr_walk InterfaceMember.visits
  intro member rest
  cases member with
  | method spec =>
      simp only [ParamList.walk_eq, Results.walk?_eq, InterfaceMember.visits, List.append_assoc]
  | embed name => rfl

theorem SumDecl.walk_eq (rest : List Visit) (decl : SumDecl) :
    SumDecl.walk rest decl = decl.body.items.flatMap SumVariant.visits ++ rest := by
  apply foldr_walk SumVariant.visits
  intro variant rest
  unfold SumVariant.visits
  cases variant.params with
  | none => rfl
  | some params => exact ParamList.walk_eq rest params

/-- The nodes met in a statement, itself first. -/
def Stmt.visits (stmt : Stmt) : List Visit := stmt.walk []

/-- The nodes met in statements in braces, the block first. -/
def Stmt.blockVisits (block : Enclosed Stmt) : List Visit := Stmt.walkBlock [] block

/-- The nodes met in a function. -/
def FuncDecl.visits (decl : FuncDecl) : List Visit := decl.walk []

/-- The nodes met in a declaration, itself first. -/
def Decl.visits (decl : Decl) : List Visit := decl.walk []

mutual

theorem Stmt.walk_eq (rest : List Visit) (stmt : Stmt) :
    stmt.walk rest = stmt.visits ++ rest := by
  unfold Stmt.visits
  match stmt with
  | .block body =>
      simp only [Stmt.walk, Stmt.walkBlock_eq _ body, List.append_nil, List.cons_append]
  | .const decl | .var decl =>
      simp only [Stmt.walk, decl.walk_eq, List.append_nil, List.cons_append]
  | .assign left _ right =>
      simp only [Stmt.walk, left.walk_eq, right.walk_eq, List.append_nil, List.append_assoc,
        List.cons_append]
  | .incDec target _ | .effect target =>
      simp only [Stmt.walk, target.walk_eq, List.append_nil, List.cons_append]
  | .returns _ values => simp only [Stmt.walk, Expr.walkAll_eq, List.append_nil, List.cons_append]
  | .ifElse _ condition body otherwise =>
      simp only [Stmt.walk, condition.walk_eq, Stmt.walkBlock_eq _ body, Stmt.walk?_eq _ otherwise,
        List.append_nil, List.append_assoc, List.cons_append]
  | .forLoop _ first condition after body =>
      simp only [Stmt.walk, Stmt.walk?_eq _ first, Expr.walk?_eq, Stmt.walk?_eq _ after,
        Stmt.walkBlock_eq _ body, List.append_nil, List.append_assoc, List.cons_append]
  | .rangeLoop _ key value _ _ subject body =>
      simp only [Stmt.walk, Expr.walk?_eq, subject.walk_eq, Stmt.walkBlock_eq _ body,
        List.append_nil, List.append_assoc, List.cons_append]
  | .switch _ first tag ⟨_, cases, _⟩ =>
      simp only [Stmt.walk, Stmt.walk?_eq _ first, Expr.walk?_eq, Stmt.walkAll_eq _ cases,
        List.append_nil, List.append_assoc, List.cons_append]
  | .clause _ values _ body =>
      simp only [Stmt.walk, Expr.walkAll_eq, Stmt.walkAll_eq _ body, List.append_nil,
        List.append_assoc, List.cons_append]
  | .breakLoop _ | .continueLoop _ | .fallThrough _ | .bad _ => rfl
  | .decl inner => simp only [Stmt.walk, inner.walk_eq, List.append_nil, List.cons_append]

theorem Stmt.walkBlock_eq (rest : List Visit) (block : Enclosed Stmt) :
    Stmt.walkBlock rest block = Stmt.blockVisits block ++ rest := by
  match block with
  | ⟨_, stmts, _⟩ =>
      rw [Stmt.blockVisits, Stmt.walkBlock, Stmt.walkBlock, Stmt.walkAll_eq rest stmts,
        Stmt.walkAll_eq [] stmts, List.append_nil, List.cons_append]

theorem Stmt.walk?_eq (rest : List Visit) (stmt : Option Stmt) :
    Stmt.walk? rest stmt = visitsOf? Stmt.visits stmt ++ rest := by
  match stmt with
  | none => rfl
  | some stmt => exact stmt.walk_eq rest

theorem Stmt.walkAll_eq (rest : List Visit) (stmts : List Stmt) :
    Stmt.walkAll rest stmts = stmts.flatMap Stmt.visits ++ rest := by
  match stmts with
  | [] => rfl
  | stmt :: others =>
      rw [Stmt.walkAll, stmt.walk_eq, Stmt.walkAll_eq rest others, List.flatMap_cons,
        List.append_assoc]

theorem FuncDecl.walk_eq (rest : List Visit) (decl : FuncDecl) :
    decl.walk rest = decl.visits ++ rest := by
  match decl with
  | ⟨_, _, params, results, body⟩ =>
      simp only [FuncDecl.visits, FuncDecl.walk, ParamList.walk_eq, Results.walk?_eq,
        Stmt.walkBlock_eq _ body, List.append_nil, List.append_assoc]

theorem Decl.walk_eq (rest : List Visit) (decl : Decl) :
    decl.walk rest = decl.visits ++ rest := by
  unfold Decl.visits
  match decl with
  | .func inner => simp only [Decl.walk, inner.walk_eq, List.append_nil, List.cons_append]
  | .struct inner => simp only [Decl.walk, StructDecl.walk_eq, List.append_nil, List.cons_append]
  | .interface inner =>
      simp only [Decl.walk, InterfaceDecl.walk_eq, List.append_nil, List.cons_append]
  | .sum inner => simp only [Decl.walk, SumDecl.walk_eq, List.append_nil, List.cons_append]
  | .enum _ | .implements _ | .bad _ => rfl

end

namespace Stmt

theorem blockVisits_eq (block : Enclosed Stmt) :
    blockVisits block = .block block :: block.items.flatMap visits := by
  obtain ⟨opening, stmts, closing⟩ := block
  rw [blockVisits, walkBlock, walkAll_eq, List.append_nil]

theorem visits_block (body : Enclosed Stmt) :
    (block body).visits = .stmt (block body) :: blockVisits body := by
  rw [visits, walk]
  rfl

theorem visits_const (decl : ValueDecl) :
    (const decl).visits = .stmt (const decl) :: decl.visits := by
  rw [visits, walk, decl.walk_eq, List.append_nil]

theorem visits_var (decl : ValueDecl) :
    (var decl).visits = .stmt (var decl) :: decl.visits := by
  rw [visits, walk, decl.walk_eq, List.append_nil]

theorem visits_assign (left : Expr) (op : Token) (right : Expr) :
    (assign left op right).visits =
      .stmt (assign left op right) :: (left.visits ++ right.visits) := by
  rw [visits, walk, left.walk_eq]
  rfl

theorem visits_incDec (target : Expr) (op : Token) :
    (incDec target op).visits = .stmt (incDec target op) :: target.visits := by
  rw [visits, walk]
  rfl

theorem visits_effect (value : Expr) :
    (effect value).visits = .stmt (effect value) :: value.visits := by
  rw [visits, walk]
  rfl

theorem visits_returns (keyword : Token) (values : List Expr) :
    (returns keyword values).visits =
      .stmt (returns keyword values) :: values.flatMap Expr.visits := by
  rw [visits, walk, Expr.walkAll_eq, List.append_nil]

theorem visits_ifElse (keyword : Token) (condition : Expr) (body : Enclosed Stmt)
    (otherwise : Option Stmt) :
    (ifElse keyword condition body otherwise).visits =
      .stmt (ifElse keyword condition body otherwise) ::
        (condition.visits ++ (blockVisits body ++ visitsOf? visits otherwise)) := by
  rw [visits, walk, condition.walk_eq, walkBlock_eq, walk?_eq, List.append_nil]

theorem visits_forLoop (keyword : Token) (first : Option Stmt) (condition : Option Expr)
    (after : Option Stmt) (body : Enclosed Stmt) :
    (forLoop keyword first condition after body).visits =
      .stmt (forLoop keyword first condition after body) ::
        (visitsOf? visits first ++ (visitsOf? Expr.visits condition ++
          (visitsOf? visits after ++ blockVisits body))) := by
  rw [visits, walk, walk?_eq, Expr.walk?_eq, walk?_eq, walkBlock_eq, List.append_nil]

theorem visits_rangeLoop (keyword : Token) (key value : Option Expr) (op : Option Token)
    (rangeKeyword : Token) (subject : Expr) (body : Enclosed Stmt) :
    (rangeLoop keyword key value op rangeKeyword subject body).visits =
      .stmt (rangeLoop keyword key value op rangeKeyword subject body) ::
        (visitsOf? Expr.visits key ++ (visitsOf? Expr.visits value ++
          (subject.visits ++ blockVisits body))) := by
  rw [visits, walk, Expr.walk?_eq, Expr.walk?_eq, subject.walk_eq, walkBlock_eq,
    List.append_nil]

theorem visits_switch (keyword : Token) (first : Option Stmt) (tag : Option Expr)
    (cases : Enclosed Stmt) :
    (switch keyword first tag cases).visits =
      .stmt (switch keyword first tag cases) ::
        (visitsOf? visits first ++ (visitsOf? Expr.visits tag ++
          cases.items.flatMap visits)) := by
  obtain ⟨opening, clauses, closing⟩ := cases
  rw [visits, walk, walk?_eq, Expr.walk?_eq, walkAll_eq, List.append_nil]

theorem visits_clause (keyword : Token) (values : List Expr) (colon : Token)
    (body : List Stmt) :
    (clause keyword values colon body).visits =
      .stmt (clause keyword values colon body) ::
        (values.flatMap Expr.visits ++ body.flatMap visits) := by
  rw [visits, walk, Expr.walkAll_eq, walkAll_eq, List.append_nil]

theorem visits_decl (inner : Decl) :
    (decl inner).visits = .stmt (decl inner) :: inner.visits := by
  rw [visits, walk]
  rfl

end Stmt

theorem FuncDecl.visits_eq (decl : FuncDecl) :
    decl.visits = ParamList.visits decl.params ++
      (visitsOf? Results.visits decl.results ++ Stmt.blockVisits decl.body) := by
  obtain ⟨keyword, name, params, results, body⟩ := decl
  rw [visits, walk, ParamList.walk_eq, Results.walk?_eq, Stmt.walkBlock_eq, List.append_nil]

namespace Decl

theorem visits_func (decl : FuncDecl) : (func decl).visits = .decl (func decl) :: decl.visits := by
  rw [visits, walk]
  rfl

theorem visits_struct (decl : StructDecl) :
    (struct decl).visits =
      .decl (struct decl) :: decl.body.items.flatMap FieldDecl.visits := by
  rw [visits, walk, StructDecl.walk_eq, List.append_nil]

theorem visits_interface (decl : InterfaceDecl) :
    (interface decl).visits =
      .decl (interface decl) :: decl.body.items.flatMap InterfaceMember.visits := by
  rw [visits, walk, InterfaceDecl.walk_eq, List.append_nil]

theorem visits_sum (decl : SumDecl) :
    (sum decl).visits = .decl (sum decl) :: decl.body.items.flatMap SumVariant.visits := by
  rw [visits, walk, SumDecl.walk_eq, List.append_nil]

end Decl

/-- A file is walked bucket by bucket. -/
theorem File.visits_eq (file : File) :
    file.visits = file.consts.flatMap Stmt.visits ++ (file.decls.flatMap Decl.visits ++
      (file.structs.flatMap (fun decl => decl.body.items.flatMap FieldDecl.visits) ++
        (file.interfaces.flatMap
            (fun decl => decl.body.items.flatMap InterfaceMember.visits) ++
          file.sums.flatMap fun decl => decl.body.items.flatMap SumVariant.visits))) := by
  rw [File.visits, Stmt.walkAll_eq, foldr_walk Decl.visits (fun decl rest => decl.walk_eq rest),
    foldr_walk _ (fun decl rest => StructDecl.walk_eq rest decl),
    foldr_walk _ (fun decl rest => InterfaceDecl.walk_eq rest decl),
    foldr_walk _ (fun decl rest => SumDecl.walk_eq rest decl), List.append_nil]

/-- A node that could not be read, with the name of its category. -/
def Visit.named? : Visit → Option (String × BadNode)
  | decl (.bad node) => some ("BadDecl", node)
  | stmt (.bad node) => some ("BadStmt", node)
  | expr (.bad node) => some ("BadExpr", node)
  | type (.bad node) => some ("BadType", node)
  | _ => none

/-- Visits in which each bad node stands right behind the node of its category. -/
inductive Paired : List Visit → Prop
  | nil : Paired []
  | node {visit : Visit} {rest : List Visit} (hnamed : visit.named? = none)
      (hbad : visit.bad? = none) (hrest : Paired rest) : Paired (visit :: rest)
  | bad {visit : Visit} {name : String} {node : BadNode} {rest : List Visit}
      (hnamed : visit.named? = some (name, node)) (hbad : visit.bad? = none)
      (hrest : Paired rest) : Paired (visit :: .bad node :: rest)

/-- Where bad nodes stand behind their categories, both tell of the same bad nodes. -/
theorem Paired.named_eq {visits : List Visit} (hvisits : Paired visits) :
    (visits.filterMap Visit.named?).map Prod.snd = visits.filterMap Visit.bad? := by
  induction hvisits with
  | nil => rfl
  | node hnamed hbad _ ih =>
      rw [List.filterMap_cons_none hnamed, List.filterMap_cons_none hbad, ih]
  | @bad visit name node rest hnamed hbad _ ih =>
      have hsecond : (Visit.bad node).named? = none := rfl
      have hnode : (Visit.bad node).bad? = some node := rfl
      rw [List.filterMap_cons_some hnamed, List.filterMap_cons_none hsecond,
        List.filterMap_cons_none hbad, List.filterMap_cons_some hnode, List.map_cons, ih]

theorem TypeExpr.paired_walk {rest : List Visit} (hrest : Paired rest) (type : TypeExpr) :
    Paired (type.walk rest) := by
  cases type with
  | named name => exact .node rfl rfl hrest
  | bad node => exact .bad rfl rfl hrest

mutual

theorem Expr.paired_walk {rest : List Visit} (hrest : Paired rest) (expr : Expr) :
    Paired (expr.walk rest) := by
  match expr with
  | .ident _ | .literal .. => exact .node rfl rfl hrest
  | .paren _ inner _ | .unary _ inner | .selector inner _ _ =>
      rw [Expr.walk]
      exact .node rfl rfl (inner.paired_walk hrest)
  | .binary left _ right | .index left _ right _ =>
      rw [Expr.walk]
      exact .node rfl rfl (left.paired_walk (right.paired_walk hrest))
  | .call callee ⟨_, args, _⟩ =>
      rw [Expr.walk]
      exact .node rfl rfl (callee.paired_walk (Expr.paired_walkAll hrest args))
  | .bad node => exact .bad rfl rfl hrest

theorem Expr.paired_walkAll {rest : List Visit} (hrest : Paired rest) (exprs : List Expr) :
    Paired (Expr.walkAll rest exprs) := by
  match exprs with
  | [] => exact hrest
  | expr :: others => exact expr.paired_walk (Expr.paired_walkAll hrest others)

end

theorem Expr.paired_walk? {rest : List Visit} (hrest : Paired rest) (expr : Option Expr) :
    Paired (Expr.walk? rest expr) := by
  cases expr with
  | none => exact hrest
  | some expr => exact expr.paired_walk hrest

theorem paired_foldr {α : Type} {walk : α → List Visit → List Visit}
    (hwalk : ∀ item rest, Paired rest → Paired (walk item rest)) {rest : List Visit}
    (hrest : Paired rest) (items : List α) : Paired (items.foldr walk rest) := by
  induction items with
  | nil => exact hrest
  | cons item others ih => exact hwalk item _ ih

theorem ParamList.paired_walk {rest : List Visit} (hrest : Paired rest) (params : ParamList) :
    Paired (ParamList.walk rest params) :=
  paired_foldr (fun param _ hrest => param.type.paired_walk hrest) hrest params.items

theorem Results.paired_walk? {rest : List Visit} (hrest : Paired rest)
    (results : Option Results) : Paired (Results.walk? rest results) := by
  match results with
  | none => exact hrest
  | some (.single type) => exact type.paired_walk hrest
  | some (.list params) => exact ParamList.paired_walk hrest params

theorem ValueDecl.paired_walk {rest : List Visit} (hrest : Paired rest) (decl : ValueDecl) :
    Paired (decl.walk rest) := by
  unfold ValueDecl.walk
  split
  · exact decl.value.paired_walk hrest
  · next type _ => exact type.paired_walk (decl.value.paired_walk hrest)

theorem StructDecl.paired_walk {rest : List Visit} (hrest : Paired rest) (decl : StructDecl) :
    Paired (StructDecl.walk rest decl) := by
  apply paired_foldr _ hrest
  intro field others hothers
  exact field.type.paired_walk (Expr.paired_walk? hothers _)

theorem InterfaceDecl.paired_walk {rest : List Visit} (hrest : Paired rest)
    (decl : InterfaceDecl) : Paired (InterfaceDecl.walk rest decl) := by
  apply paired_foldr _ hrest
  intro member others hothers
  cases member with
  | method spec => exact ParamList.paired_walk (Results.paired_walk? hothers _) spec.params
  | embed name => exact hothers

theorem SumDecl.paired_walk {rest : List Visit} (hrest : Paired rest) (decl : SumDecl) :
    Paired (SumDecl.walk rest decl) := by
  apply paired_foldr _ hrest
  intro variant others hothers
  cases variant.params with
  | none => exact hothers
  | some params => exact ParamList.paired_walk hothers params

mutual

theorem Stmt.paired_walk {rest : List Visit} (hrest : Paired rest) (stmt : Stmt) :
    Paired (stmt.walk rest) := by
  match stmt with
  | .bad node => exact .bad rfl rfl hrest
  | .breakLoop _ | .continueLoop _ | .fallThrough _ => exact .node rfl rfl hrest
  | .block body =>
      rw [Stmt.walk]
      exact .node rfl rfl (Stmt.paired_walkBlock hrest body)
  | .const decl | .var decl =>
      rw [Stmt.walk]
      exact .node rfl rfl (decl.paired_walk hrest)
  | .assign left _ right =>
      rw [Stmt.walk]
      exact .node rfl rfl (left.paired_walk (right.paired_walk hrest))
  | .incDec value _ | .effect value =>
      rw [Stmt.walk]
      exact .node rfl rfl (value.paired_walk hrest)
  | .returns _ values =>
      rw [Stmt.walk]
      exact .node rfl rfl (Expr.paired_walkAll hrest values)
  | .ifElse _ condition body otherwise =>
      have hotherwise := Stmt.paired_walk? hrest otherwise
      rw [Stmt.walk]
      exact .node rfl rfl (condition.paired_walk (Stmt.paired_walkBlock hotherwise body))
  | .forLoop _ first condition after body =>
      have hafter := Stmt.paired_walk? (Stmt.paired_walkBlock hrest body) after
      rw [Stmt.walk]
      exact .node rfl rfl (Stmt.paired_walk? (Expr.paired_walk? hafter condition) first)
  | .rangeLoop _ key value _ _ subject body =>
      have hsubject := subject.paired_walk (Stmt.paired_walkBlock hrest body)
      rw [Stmt.walk]
      exact .node rfl rfl (Expr.paired_walk? (Expr.paired_walk? hsubject value) key)
  | .switch _ first tag ⟨_, cases, _⟩ =>
      have hcases := Stmt.paired_walkAll hrest cases
      rw [Stmt.walk]
      exact .node rfl rfl (Stmt.paired_walk? (Expr.paired_walk? hcases tag) first)
  | .clause _ values _ body =>
      rw [Stmt.walk]
      exact .node rfl rfl (Expr.paired_walkAll (Stmt.paired_walkAll hrest body) values)
  | .decl inner =>
      rw [Stmt.walk]
      exact .node rfl rfl (inner.paired_walk hrest)

theorem Stmt.paired_walkBlock {rest : List Visit} (hrest : Paired rest) (block : Enclosed Stmt) :
    Paired (Stmt.walkBlock rest block) := by
  match block with
  | ⟨_, stmts, _⟩ => exact .node rfl rfl (Stmt.paired_walkAll hrest stmts)

theorem Stmt.paired_walk? {rest : List Visit} (hrest : Paired rest) (stmt : Option Stmt) :
    Paired (Stmt.walk? rest stmt) := by
  match stmt with
  | none => exact hrest
  | some stmt => exact stmt.paired_walk hrest

theorem Stmt.paired_walkAll {rest : List Visit} (hrest : Paired rest) (stmts : List Stmt) :
    Paired (Stmt.walkAll rest stmts) := by
  match stmts with
  | [] => exact hrest
  | stmt :: others => exact stmt.paired_walk (Stmt.paired_walkAll hrest others)

theorem FuncDecl.paired_walk {rest : List Visit} (hrest : Paired rest) (decl : FuncDecl) :
    Paired (decl.walk rest) := by
  match decl with
  | ⟨_, _, params, results, body⟩ =>
      have hbody := Stmt.paired_walkBlock hrest body
      exact ParamList.paired_walk (Results.paired_walk? hbody results) params

theorem Decl.paired_walk {rest : List Visit} (hrest : Paired rest) (decl : Decl) :
    Paired (decl.walk rest) := by
  match decl with
  | .func inner => exact .node rfl rfl (inner.paired_walk hrest)
  | .struct inner => exact .node rfl rfl (StructDecl.paired_walk hrest inner)
  | .interface inner => exact .node rfl rfl (InterfaceDecl.paired_walk hrest inner)
  | .sum inner => exact .node rfl rfl (SumDecl.paired_walk hrest inner)
  | .enum _ | .implements _ => exact .node rfl rfl hrest
  | .bad node => exact .bad rfl rfl hrest

end

namespace File

/-- A walk over a file meets every bad node right behind the node of its category. -/
theorem paired_visits (file : File) : Paired file.visits := by
  have hsums := paired_foldr (fun decl _ hrest => SumDecl.paired_walk hrest decl) .nil file.sums
  have hinterfaces :=
    paired_foldr (fun decl _ hrest => InterfaceDecl.paired_walk hrest decl) hsums file.interfaces
  have hstructs :=
    paired_foldr (fun decl _ hrest => StructDecl.paired_walk hrest decl) hinterfaces file.structs
  have hdecls :=
    paired_foldr (fun decl _ hrest => Decl.paired_walk hrest decl) hstructs file.decls
  exact Stmt.paired_walkAll hdecls file.consts

/-- The bad nodes of a file with the names of their categories, in the order of the walk. -/
def namedBadNodes (file : File) : List (String × BadNode) :=
  file.visits.filterMap Visit.named?

theorem namedBadNodes_eq (file : File) : file.namedBadNodes.map Prod.snd = file.badNodes :=
  file.paired_visits.named_eq

end File

end OriSyntax
