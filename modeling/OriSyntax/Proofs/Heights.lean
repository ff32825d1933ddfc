import OriSyntax.Proofs.WellFormed
import OriSyntax.Tree.Depth

/-!
How deep trees are, compared with how deeply they are nested.  Operators and suffixes that
are folded onto one operand each add a node around the ones before, and no level: a tree
is at most as many times deeper than nested as its longest fold has nodes.
-/

namespace OriSyntax

/-- The measure of what may be missing; zero if it is. -/
def measureOf? {α : Type} (measure : α → Nat) (part : Option α) : Nat :=
  (part.map measure).getD 0

mutual

/-- Height of a statement: each statement and declaration adds `step` to what is inside it,
and expressions are as high as `measure` tells. -/
def Stmt.height (step : Nat) (measure : Expr → Nat) : Stmt → Nat
  | .block body => Stmt.heightOfBlock step measure body + step
  | .const decl | .var decl => measure decl.value + step
  | .assign left _ right => max (measure left) (measure right) + step
  | .incDec target _ => measure target + step
  | .effect value => measure value + step
  | .returns _ values => greatest measure values + step
  | .ifElse _ condition body otherwise =>
      max (measure condition) (max (Stmt.heightOfBlock step measure body)
        (Stmt.height? step measure otherwise)) + step
  | .forLoop _ first condition after body =>
      max (max (Stmt.height? step measure first) (measureOf? measure condition))
        (max (Stmt.height? step measure after) (Stmt.heightOfBlock step measure body)) + step
  | .rangeLoop _ key value _ _ subject body =>
      max (max (measureOf? measure key) (measureOf? measure value))
        (max (measure subject) (Stmt.heightOfBlock step measure body)) + step
  | .switch _ first tag ⟨_, cases, _⟩ =>
      max (max (Stmt.height? step measure first) (measureOf? measure tag))
        (Stmt.heightOfAll step measure cases) + step
  | .clause _ values _ body =>
      max (greatest measure values) (Stmt.heightOfAll step measure body) + step
  | .breakLoop _ | .continueLoop _ | .fallThrough _ | .bad _ => step
  | .decl inner => inner.height step measure + step

/-- The greatest height among statements in braces. -/
def Stmt.heightOfBlock (step : Nat) (measure : Expr → Nat) : Enclosed Stmt → Nat
  | ⟨_, stmts, _⟩ => Stmt.heightOfAll step measure stmts

/-- Height of a statement that may be missing. -/
def Stmt.height? (step : Nat) (measure : Expr → Nat) : Option Stmt → Nat
  | none => 0
  | some stmt => stmt.height step measure

/-- The greatest height among statements. -/
def Stmt.heightOfAll (step : Nat) (measure : Expr → Nat) : List Stmt → Nat
  | [] => 0
  | stmt :: rest => max (stmt.height step measure) (Stmt.heightOfAll step measure rest)

/-- Height of a declaration. -/
def Decl.height (step : Nat) (measure : Expr → Nat) : Decl → Nat
  | .func ⟨_, _, _, _, body⟩ => Stmt.heightOfBlock step measure body + step
  | .struct decl =>
      greatest (fun field => measureOf? measure (field.default.map Default.value))
        decl.body.items + step
  | .interface _ | .enum _ | .sum _ | .implements _ | .bad _ => step

end

/-- Height of a structure at the top level, where it adds no step. -/
def StructDecl.height (measure : Expr → Nat) (decl : StructDecl) : Nat :=
  greatest (fun field => measureOf? measure (field.default.map Default.value)) decl.body.items

/-- Height of a file. -/
def File.height (step : Nat) (measure : Expr → Nat) (file : File) : Nat :=
  max (Stmt.heightOfAll step measure file.consts)
    (max (greatest (Decl.height step measure) file.decls)
      (greatest (StructDecl.height measure) file.structs))

theorem measureOf?_le_iff {α : Type} {measure : α → Nat} {part : Option α} {bound : Nat} :
    measureOf? measure part ≤ bound ↔ ∀ value ∈ part, measure value ≤ bound := by
  cases part <;> simp [measureOf?]

theorem Stmt.height?_le_iff {step bound : Nat} {measure : Expr → Nat} {stmt : Option Stmt} :
    Stmt.height? step measure stmt ≤ bound ↔
      ∀ value ∈ stmt, value.height step measure ≤ bound := by
  cases stmt <;> simp [Stmt.height?]

theorem Stmt.heightOfAll_le_iff {step bound : Nat} {measure : Expr → Nat} {stmts : List Stmt} :
    Stmt.heightOfAll step measure stmts ≤ bound ↔
      ∀ stmt ∈ stmts, stmt.height step measure ≤ bound := by
  induction stmts with
  | nil => simp [Stmt.heightOfAll]
  | cons stmt rest ih => rw [Stmt.heightOfAll, Nat.max_le, ih, List.forall_mem_cons]

theorem foldl_max_eq {α : Type} (measure : α → Nat) (items : List α) (before : Nat) :
    items.foldl (fun deepest item => max deepest (measure item)) before =
      max before (greatest measure items) := by
  induction items generalizing before with
  | nil => simp [greatest]
  | cons item rest ih =>
      rw [List.foldl_cons, ih, Nat.max_assoc]
      rfl

theorem StructDecl.depth_eq (decl : StructDecl) :
    StructDecl.depth decl = StructDecl.height Expr.depth decl := by
  rw [StructDecl.depth, StructDecl.height, foldl_max_eq, Nat.zero_max]
  rfl

theorem Expr.depthOfAll_eq (exprs : List Expr) :
    Expr.depthOfAll exprs = greatest Expr.depth exprs := by
  induction exprs with
  | nil => rfl
  | cons expr rest ih =>
      rw [Expr.depthOfAll, ih]
      rfl

mutual

/-- The depth of a statement is its height if each node adds one. -/
theorem Stmt.depth_eq (stmt : Stmt) : stmt.depth = stmt.height 1 Expr.depth := by
  match stmt with
  | .block body => rw [Stmt.depth, Stmt.height, Stmt.depthOfBlock_eq body]
  | .const _ | .var _ | .assign .. | .incDec .. | .effect _ | .breakLoop _ | .continueLoop _
  | .fallThrough _ | .bad _ => simp only [Stmt.depth, Stmt.height]
  | .returns _ values => rw [Stmt.depth, Stmt.height, Expr.depthOfAll_eq]
  | .ifElse _ _ body otherwise =>
      rw [Stmt.depth, Stmt.height, Stmt.depthOfBlock_eq body, Stmt.depth?_eq otherwise]
  | .forLoop _ first _ after body =>
      rw [Stmt.depth, Stmt.height, Stmt.depthOfBlock_eq body, Stmt.depth?_eq first,
        Stmt.depth?_eq after]
      rfl
  | .rangeLoop _ _ _ _ _ _ body =>
      rw [Stmt.depth, Stmt.height, Stmt.depthOfBlock_eq body]
      rfl
  | .switch _ first _ ⟨_, cases, _⟩ =>
      rw [Stmt.depth, Stmt.height, Stmt.depth?_eq first, Stmt.depthOfAll_eq cases]
      rfl
  | .clause _ _ _ body =>
      rw [Stmt.depth, Stmt.height, Expr.depthOfAll_eq, Stmt.depthOfAll_eq body]
  | .decl inner => rw [Stmt.depth, Stmt.height, inner.depth_eq]

theorem Stmt.depthOfBlock_eq (body : Enclosed Stmt) :
    Stmt.depthOfBlock body = Stmt.heightOfBlock 1 Expr.depth body := by
  match body with
  | ⟨_, stmts, _⟩ => rw [Stmt.depthOfBlock, Stmt.heightOfBlock, Stmt.depthOfAll_eq stmts]

theorem Stmt.depth?_eq (stmt : Option Stmt) :
    Stmt.depth? stmt = Stmt.height? 1 Expr.depth stmt := by
  match stmt with
  | none => rfl
  | some stmt => rw [Stmt.depth?, Stmt.height?, stmt.depth_eq]

theorem Stmt.depthOfAll_eq (stmts : List Stmt) :
    Stmt.depthOfAll stmts = Stmt.heightOfAll 1 Expr.depth stmts := by
  match stmts with
  | [] => rfl
  | stmt :: rest =>
      rw [Stmt.depthOfAll, Stmt.heightOfAll, stmt.depth_eq, Stmt.depthOfAll_eq rest]

theorem Decl.depth_eq (decl : Decl) : decl.depth = decl.height 1 Expr.depth := by
  match decl with
  | .func ⟨_, _, _, _, body⟩ =>
      rw [Decl.depth, Decl.height, FuncDecl.depth, Stmt.depthOfBlock_eq body]
  | .struct inner =>
      rw [Decl.depth, Decl.height, StructDecl.depth_eq]
      rfl
  | .interface _ | .enum _ | .sum _ | .implements _ | .bad _ =>
      simp only [Decl.depth, Decl.height]

end

/-- The depth of a file is its height if each node adds one. -/
theorem File.depth_eq (file : File) : file.depth = file.height 1 Expr.depth := by
  rw [File.depth, File.height, foldl_max_eq, foldl_max_eq, Stmt.depthOfAll_eq, Nat.zero_max,
    Nat.zero_max, funext Decl.depth_eq, funext StructDecl.depth_eq]

/-- How many operators and suffixes are folded onto the operand with which an expression
begins. -/
def Expr.folds : Expr → Nat
  | .ident _ | .literal .. | .bad _ | .paren .. | .unary .. => 0
  | .binary left _ _ => left.folds + 1
  | .selector base _ _ => base.folds + 1
  | .index base _ _ _ => base.folds + 1
  | .call callee _ => callee.folds + 1

mutual

/-- The greatest number of operators and suffixes that are folded onto one operand, anywhere
in an expression. -/
def Expr.longestFold : Expr → Nat
  | .ident _ | .literal .. | .bad _ => 0
  | .paren _ inner _ => inner.longestFold
  | .unary _ operand => operand.longestFold
  | .binary left _ right => max (left.folds + 1) (max left.longestFold right.longestFold)
  | .selector base _ _ => max (base.folds + 1) base.longestFold
  | .index base _ inner _ => max (base.folds + 1) (max base.longestFold inner.longestFold)
  | .call callee ⟨_, args, _⟩ =>
      max (callee.folds + 1) (max callee.longestFold (Expr.longestFoldOfAll args))

/-- The longest fold among expressions. -/
def Expr.longestFoldOfAll : List Expr → Nat
  | [] => 0
  | expr :: rest => max expr.longestFold (Expr.longestFoldOfAll rest)

end

theorem Expr.folds_le_longestFold (expr : Expr) : expr.folds ≤ expr.longestFold := by
  cases expr <;> simp only [Expr.folds, Expr.longestFold, Nat.zero_le, Nat.le_max_left]

/-- The longest fold of a file. -/
def File.longestFold (file : File) : Nat := file.height 0 Expr.longestFold

section Folds

variable {bound : Nat}

theorem succ_le_succ_mul {depth levels : Nat} (hdepth : depth ≤ levels * (bound + 1)) :
    depth + 1 ≤ (levels + 1) * (bound + 1) := by
  rw [Nat.succ_mul]
  omega

mutual

/-- Each level of nesting adds its own fold to the depth of an expression. -/
theorem Expr.depth_le_of_inside_le (expr : Expr) {levels : Nat} (hinside : expr.inside ≤ levels)
    (hfold : expr.longestFold ≤ bound) :
    expr.depth ≤ expr.folds + 1 + levels * (bound + 1) := by
  match expr with
  | .ident _ | .literal .. | .bad _ =>
      simp only [Expr.depth, Expr.folds]
      omega
  | .paren _ inner _ | .unary _ inner =>
      simp only [Expr.inside, Expr.longestFold] at hinside hfold
      have hinner := inner.depth_le_of_nesting_le hinside hfold
      simp only [Expr.depth, Expr.folds]
      omega
  | .binary left _ right | .index left _ right _ =>
      simp only [Expr.inside, Expr.longestFold, Nat.max_le] at hinside hfold
      -- The left side belongs to the same fold, while the right side is one level further in.
      have hleft := left.depth_le_of_inside_le hinside.1 hfold.2.1
      have hright := right.depth_le_of_nesting_le hinside.2 hfold.2.2
      simp only [Expr.depth, Expr.folds]
      omega
  | .selector base _ _ =>
      simp only [Expr.inside, Expr.longestFold, Nat.max_le] at hinside hfold
      have hbase := base.depth_le_of_inside_le hinside hfold.2
      simp only [Expr.depth, Expr.folds]
      omega
  | .call callee ⟨_, args, _⟩ =>
      simp only [Expr.inside, Expr.longestFold, Nat.max_le] at hinside hfold
      have hcallee := callee.depth_le_of_inside_le hinside.1 hfold.2.1
      have hargs := Expr.depthOfAll_le args hinside.2 hfold.2.2
      simp only [Expr.depth, Expr.folds]
      omega

theorem Expr.depth_le_of_nesting_le (expr : Expr) {levels : Nat}
    (hnesting : expr.inside + 1 ≤ levels) (hfold : expr.longestFold ≤ bound) :
    expr.depth ≤ levels * (bound + 1) := by
  obtain ⟨levels, rfl⟩ := Nat.exists_eq_succ_of_ne_zero (Nat.ne_zero_of_lt hnesting)
  have hdepth := expr.depth_le_of_inside_le (Nat.le_of_succ_le_succ hnesting) hfold
  have hfolds := expr.folds_le_longestFold
  rw [Nat.succ_mul]
  omega

theorem Expr.depthOfAll_le (exprs : List Expr) {levels : Nat}
    (hnesting : Expr.nestingOfAll exprs ≤ levels)
    (hfold : Expr.longestFoldOfAll exprs ≤ bound) :
    Expr.depthOfAll exprs ≤ levels * (bound + 1) := by
  match exprs with
  | [] => exact Nat.zero_le _
  | expr :: rest =>
      simp only [Expr.nestingOfAll, Expr.longestFoldOfAll, Nat.max_le] at hnesting hfold
      rw [Expr.depthOfAll, Nat.max_le]
      exact ⟨expr.depth_le_of_nesting_le hnesting.1 hfold.1,
        Expr.depthOfAll_le rest hnesting.2 hfold.2⟩

end

variable {levels : Nat}

/-- The greatest depth among items is bounded as the depth of each one is. -/
theorem greatest_le_mul {α : Type} {depth nesting fold : α → Nat} {items : List α}
    (hitem : ∀ item, nesting item ≤ levels → fold item ≤ bound →
      depth item ≤ levels * (bound + 1))
    (hnesting : greatest nesting items ≤ levels) (hfold : greatest fold items ≤ bound) :
    greatest depth items ≤ levels * (bound + 1) := by
  rw [greatest_le_iff] at hnesting hfold ⊢
  intro item hmem
  exact hitem item (hnesting item hmem) (hfold item hmem)

theorem measureOf?_depth_le (part : Option Expr)
    (hnesting : measureOf? Expr.nesting part ≤ levels)
    (hfold : measureOf? Expr.longestFold part ≤ bound) :
    measureOf? Expr.depth part ≤ levels * (bound + 1) := by
  cases part with
  | none => exact Nat.zero_le _
  | some expr => exact expr.depth_le_of_nesting_le hnesting hfold

theorem StructDecl.height_depth_le (decl : StructDecl)
    (hnesting : StructDecl.height Expr.nesting decl ≤ levels)
    (hfold : StructDecl.height Expr.longestFold decl ≤ bound) :
    StructDecl.height Expr.depth decl ≤ levels * (bound + 1) :=
  greatest_le_mul (fun _ => measureOf?_depth_le _) hnesting hfold

end Folds

section Levels

variable {bound : Nat}

theorem Stmt.height_pos (stmt : Stmt) (measure : Expr → Nat) : 0 < stmt.height 1 measure := by
  cases stmt <;> simp only [Stmt.height, Nat.succ_pos]

theorem Decl.height_pos (decl : Decl) (measure : Expr → Nat) : 0 < decl.height 1 measure := by
  match decl with
  | .func ⟨_, _, _, _, _⟩ | .struct _ | .interface _ | .enum _ | .sum _ | .implements _
  | .bad _ => simp only [Decl.height, Nat.succ_pos]

mutual

/-- Each level of a statement is at most as deep as the longest fold in it tells. -/
theorem Stmt.height_depth_le (stmt : Stmt) {levels : Nat}
    (hlevels : stmt.height 1 Expr.nesting ≤ levels)
    (hfold : stmt.height 0 Expr.longestFold ≤ bound) :
    stmt.height 1 Expr.depth ≤ levels * (bound + 1) := by
  obtain ⟨levels, rfl⟩ : ∃ inner, levels = inner + 1 :=
    Nat.exists_eq_add_one.2 (Nat.lt_of_lt_of_le (stmt.height_pos _) hlevels)
  match stmt with
  | .block body =>
      simp only [Stmt.height, Nat.add_le_add_iff_right, Nat.add_zero] at hlevels hfold ⊢
      exact succ_le_succ_mul (Stmt.heightOfBlock_depth_le body hlevels hfold)
  | .const decl | .var decl =>
      simp only [Stmt.height, Nat.add_le_add_iff_right, Nat.add_zero] at hlevels hfold ⊢
      exact succ_le_succ_mul (decl.value.depth_le_of_nesting_le hlevels hfold)
  | .incDec value _ | .effect value =>
      simp only [Stmt.height, Nat.add_le_add_iff_right, Nat.add_zero] at hlevels hfold ⊢
      exact succ_le_succ_mul (value.depth_le_of_nesting_le hlevels hfold)
  | .assign left _ right =>
      simp only [Stmt.height, Nat.add_le_add_iff_right, Nat.add_zero, Nat.max_le] at hlevels hfold
      apply succ_le_succ_mul
      simp only [Nat.max_le]
      exact ⟨left.depth_le_of_nesting_le hlevels.1 hfold.1,
        right.depth_le_of_nesting_le hlevels.2 hfold.2⟩
  | .returns _ values =>
      simp only [Stmt.height, Nat.add_le_add_iff_right, Nat.add_zero] at hlevels hfold ⊢
      exact succ_le_succ_mul (greatest_le_mul (fun _ => Expr.depth_le_of_nesting_le _)
        hlevels hfold)
  | .ifElse _ condition body otherwise =>
      simp only [Stmt.height, Nat.add_le_add_iff_right, Nat.add_zero, Nat.max_le] at hlevels hfold
      apply succ_le_succ_mul
      simp only [Nat.max_le]
      exact ⟨condition.depth_le_of_nesting_le hlevels.1 hfold.1,
        Stmt.heightOfBlock_depth_le body hlevels.2.1 hfold.2.1,
        Stmt.height?_depth_le otherwise hlevels.2.2 hfold.2.2⟩
  | .forLoop _ first condition after body =>
      simp only [Stmt.height, Nat.add_le_add_iff_right, Nat.add_zero, Nat.max_le] at hlevels hfold
      apply succ_le_succ_mul
      simp only [Nat.max_le]
      exact ⟨⟨Stmt.height?_depth_le first hlevels.1.1 hfold.1.1,
          measureOf?_depth_le condition hlevels.1.2 hfold.1.2⟩,
        Stmt.height?_depth_le after hlevels.2.1 hfold.2.1,
        Stmt.heightOfBlock_depth_le body hlevels.2.2 hfold.2.2⟩
  | .rangeLoop _ key value _ _ subject body =>
      simp only [Stmt.height, Nat.add_le_add_iff_right, Nat.add_zero, Nat.max_le] at hlevels hfold
      apply succ_le_succ_mul
      simp only [Nat.max_le]
      exact ⟨⟨measureOf?_depth_le key hlevels.1.1 hfold.1.1,
          measureOf?_depth_le value hlevels.1.2 hfold.1.2⟩,
        subject.depth_le_of_nesting_le hlevels.2.1 hfold.2.1,
        Stmt.heightOfBlock_depth_le body hlevels.2.2 hfold.2.2⟩
  | .switch _ first tag ⟨_, cases, _⟩ =>
      simp only [Stmt.height, Nat.add_le_add_iff_right, Nat.add_zero, Nat.max_le] at hlevels hfold
      apply succ_le_succ_mul
      simp only [Nat.max_le]
      exact ⟨⟨Stmt.height?_depth_le first hlevels.1.1 hfold.1.1,
          measureOf?_depth_le tag hlevels.1.2 hfold.1.2⟩,
        Stmt.heightOfAll_depth_le cases hlevels.2 hfold.2⟩
  | .clause _ values _ body =>
      simp only [Stmt.height, Nat.add_le_add_iff_right, Nat.add_zero, Nat.max_le] at hlevels hfold
      apply succ_le_succ_mul
      simp only [Nat.max_le]
      exact ⟨greatest_le_mul (fun _ => Expr.depth_le_of_nesting_le _) hlevels.1 hfold.1,
        Stmt.heightOfAll_depth_le body hlevels.2 hfold.2⟩
  | .breakLoop _ | .continueLoop _ | .fallThrough _ | .bad _ =>
      exact succ_le_succ_mul (Nat.zero_le _)
  | .decl inner =>
      simp only [Stmt.height, Nat.add_le_add_iff_right, Nat.add_zero] at hlevels hfold ⊢
      exact succ_le_succ_mul (inner.height_depth_le hlevels hfold)

theorem Stmt.heightOfBlock_depth_le (body : Enclosed Stmt) {levels : Nat}
    (hlevels : Stmt.heightOfBlock 1 Expr.nesting body ≤ levels)
    (hfold : Stmt.heightOfBlock 0 Expr.longestFold body ≤ bound) :
    Stmt.heightOfBlock 1 Expr.depth body ≤ levels * (bound + 1) := by
  match body with
  | ⟨_, stmts, _⟩ =>
      simp only [Stmt.heightOfBlock] at hlevels hfold ⊢
      exact Stmt.heightOfAll_depth_le stmts hlevels hfold

theorem Stmt.height?_depth_le (stmt : Option Stmt) {levels : Nat}
    (hlevels : Stmt.height? 1 Expr.nesting stmt ≤ levels)
    (hfold : Stmt.height? 0 Expr.longestFold stmt ≤ bound) :
    Stmt.height? 1 Expr.depth stmt ≤ levels * (bound + 1) := by
  match stmt with
  | none => exact Nat.zero_le _
  | some stmt =>
      simp only [Stmt.height?] at hlevels hfold ⊢
      exact stmt.height_depth_le hlevels hfold

theorem Stmt.heightOfAll_depth_le (stmts : List Stmt) {levels : Nat}
    (hlevels : Stmt.heightOfAll 1 Expr.nesting stmts ≤ levels)
    (hfold : Stmt.heightOfAll 0 Expr.longestFold stmts ≤ bound) :
    Stmt.heightOfAll 1 Expr.depth stmts ≤ levels * (bound + 1) := by
  match stmts with
  | [] => exact Nat.zero_le _
  | stmt :: rest =>
      simp only [Stmt.heightOfAll, Nat.max_le] at hlevels hfold ⊢
      exact ⟨stmt.height_depth_le hlevels.1 hfold.1,
        Stmt.heightOfAll_depth_le rest hlevels.2 hfold.2⟩

theorem Decl.height_depth_le (decl : Decl) {levels : Nat}
    (hlevels : decl.height 1 Expr.nesting ≤ levels)
    (hfold : decl.height 0 Expr.longestFold ≤ bound) :
    decl.height 1 Expr.depth ≤ levels * (bound + 1) := by
  obtain ⟨levels, rfl⟩ : ∃ inner, levels = inner + 1 :=
    Nat.exists_eq_add_one.2 (Nat.lt_of_lt_of_le (decl.height_pos _) hlevels)
  match decl with
  | .func ⟨_, _, _, _, body⟩ =>
      simp only [Decl.height, Nat.add_le_add_iff_right, Nat.add_zero] at hlevels hfold ⊢
      exact succ_le_succ_mul (Stmt.heightOfBlock_depth_le body hlevels hfold)
  | .struct inner =>
      simp only [Decl.height, Nat.add_le_add_iff_right, Nat.add_zero] at hlevels hfold ⊢
      exact succ_le_succ_mul (StructDecl.height_depth_le inner hlevels hfold)
  | .interface _ | .enum _ | .sum _ | .implements _ | .bad _ =>
      exact succ_le_succ_mul (Nat.zero_le _)

end

theorem File.depth_le {file : File} {levels : Nat}
    (hlevels : file.height 1 Expr.nesting ≤ levels) :
    file.depth ≤ levels * (file.longestFold + 1) := by
  have hfold := Nat.le_refl file.longestFold
  rw [File.longestFold, File.height, Nat.max_le, Nat.max_le] at hfold
  rw [File.height, Nat.max_le, Nat.max_le] at hlevels
  rw [File.depth_eq, File.height, Nat.max_le, Nat.max_le]
  exact ⟨Stmt.heightOfAll_depth_le _ hlevels.1 hfold.1,
    greatest_le_mul (fun _ => Decl.height_depth_le _) hlevels.2.1 hfold.2.1,
    greatest_le_mul (fun _ => StructDecl.height_depth_le _) hlevels.2.2 hfold.2.2⟩

end Levels

end OriSyntax
