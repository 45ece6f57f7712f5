import ResolvedSql.Function.Catalog
import ResolvedSql.Proofs.Parts
import ResolvedSql.Text.Quoted
/-!
The references of a tree, in the order in which they take their name paths. Arguments come before
the function they are passed to, the computed columns of a projection before its input, and the
aggregates of an aggregate scan before its keys and these before its input. Any other scan has its
input first, and a statement that changes a table has that table first.
-/
set_option autoImplicit false

namespace ResolvedSql

/-- A way into a tree: the numbers of the parts that were entered, the last one first. The parts of
a node are numbered as they stand in it, and so are the items of a list. -/
abbrev Position := List Nat

inductive Reference where
  | table
  | function
  deriving DecidableEq, Repr

structure Site where
  kind : Reference
  position : Position
  deriving DecidableEq, Repr

/-- Sites one after the other, given how many paths were taken before the first. -/
def Route := Nat → List Site

namespace Route

def none : Route := fun _ => []

def one (site : Site) : Route := fun _ => [site]

def append (r s : Route) : Route := fun i => r i ++ s (i + (r i).length)

instance : Append Route := ⟨append⟩

def when (b : Bool) (r : Route) : Route := if b then r else none

def list (p : Position) : Nat → List (Position → Route) → Route
  | _, [] => none
  | j, r :: rs => r (j :: p) ++ list p (j + 1) rs

/-- A function takes a path unless it is a builtin. Its options are not visited if the path it
takes, the `i`-th, leads to a body. -/
def call (inlined : Nat → Bool) (site : Site) (isUser : Bool) (options : Route) : Route := fun i =>
  if isUser then site :: (if inlined i then [] else options (i + 1)) else options i

@[simp] theorem none_apply (i : Nat) : none i = [] := rfl

@[simp] theorem one_apply (site : Site) (i : Nat) : one site i = [site] := rfl

@[simp] theorem append_apply (r s : Route) (i : Nat) : (r ++ s) i = r i ++ s (i + (r i).length) :=
  rfl

@[simp] theorem none_append (r : Route) : none ++ r = r := by
  funext i
  simp

@[simp] theorem append_none (r : Route) : r ++ none = r := by
  funext i
  simp

theorem append_assoc (r s t : Route) : r ++ s ++ t = r ++ (s ++ t) := by
  funext i
  simp [Nat.add_assoc]

@[simp] theorem list_nil (p : Position) (j : Nat) : list p j [] = none := rfl

@[simp] theorem list_cons (p : Position) (j : Nat) (r : Position → Route)
    (rs : List (Position → Route)) : list p j (r :: rs) = r (j :: p) ++ list p (j + 1) rs := rfl

end Route

/-- Neither in the catalog nor with a leading `$`. A `$` further on makes no builtin, so `a$b` is a
user function. -/
def Catalog.isUser (c : Catalog) (function : String) : Bool :=
  !Text.startsWith "$" function && !c.contains function

theorem Catalog.isUser_iff (c : Catalog) (function : String) :
    c.isUser function = true ↔ c.builtin? function = none := by
  unfold Catalog.isUser Catalog.builtin? Text.startsWith
  have hs : "$".toList = ['$'] := rfl
  rw [hs]
  split
  · rename_i bare h
    simp [h]
  · rename_i h
    have hp : (['$'].isPrefixOf function.toList) = false := by
      cases hf : function.toList with
      | nil => rfl
      | cons c r =>
        have hc : c ≠ '$' := fun hc => h r (by rw [hf, hc])
        simp [List.isPrefixOf, hc.symm]
    cases hc : c.contains function <;> simp [hp]

example : Catalog.scalar.isUser "a$b" = true ∧ Catalog.scalar.isUser "$ab" = false := by
  decide +kernel

def Boundary.rendersOffset (code : Int32) : Bool :=
  match BoundaryKind.ofCode code with
  | .ok kind => kind.hasOffset
  | .error _ => false

/-- The sites that a rendering visits; `inlined` tells the paths that lead to function bodies. -/
def Node.route (inlined : Nat → Bool) (p : Position) : Node → Route
  | .literal _ _ | .parameter _ _ _ | .columnRef _ | .argumentRef _ _ | .columnDefault | .singleRow
  | .withRef _ | .unsupported _ => .none
  | .call function arguments _ =>
    .list (0 :: p) 0 (arguments.map fun e q => e.route inlined q) ++
      .call inlined ⟨.function, p⟩ (Catalog.scalar.isUser function) .none
  | .aggregateCall function arguments _ _ _ limit =>
    .list (0 :: p) 0 (arguments.map fun e q => e.route inlined q) ++
      .call inlined ⟨.function, p⟩ (Catalog.aggregate.isUser function)
        (match limit with
        | none => .none
        | some e => e.route inlined (1 :: p))
  | .analyticCall function arguments _ _ frame =>
    .list (0 :: p) 0 (arguments.map fun e q => e.route inlined q) ++
      .call inlined ⟨.function, p⟩ (Catalog.window.isUser function)
        (match frame with
        | none => .none
        | some ⟨_, first, last⟩ =>
          (match first with
          | none => .none
          | some ⟨code, offset⟩ => .when (Boundary.rendersOffset code) (match offset with
            | none => .none
            | some e => e.route inlined (1 :: p))) ++
          (match last with
          | none => .none
          | some ⟨code, offset⟩ => .when (Boundary.rendersOffset code) (match offset with
            | none => .none
            | some e => e.route inlined (2 :: p))))
  | .structField operand _ _ => operand.route inlined (0 :: p)
  | .subquery _ query _ => query.route inlined (0 :: p)
  | .tableScan _ _ => .one ⟨.table, p⟩
  | .arrayScan input array _ =>
    (match input with
    | none => .none
    | some e => e.route inlined (0 :: p)) ++ array.route inlined (1 :: p)
  | .filterScan input condition => input.route inlined (0 :: p) ++ condition.route inlined (1 :: p)
  | .projectScan _ computed input =>
    .list (0 :: p) 0 (computed.map fun c q => c.expr.route inlined q) ++
      input.route inlined (1 :: p)
  | .aggregateScan _ input keys aggregates =>
    .list (2 :: p) 0 (aggregates.map fun c q => c.expr.route inlined q) ++
      .list (1 :: p) 0 (keys.map fun c q => c.expr.route inlined q) ++ input.route inlined (0 :: p)
  | .setOperation _ branches =>
    .list (0 :: p) 0 (branches.map fun b q => b.scan.route inlined q)
  | .orderByScan input _ => input.route inlined (0 :: p)
  | .limitScan input limit offset =>
    input.route inlined (0 :: p) ++ limit.route inlined (1 :: p) ++
      (match offset with
      | none => .none
      | some e => e.route inlined (2 :: p))
  | .withScan entries query _ =>
    .list (0 :: p) 0 (entries.map fun e q => e.query.route inlined q) ++
      query.route inlined (1 :: p)
  | .analyticScan _ input groups =>
    input.route inlined (0 :: p) ++ .list (1 :: p) 0
      (groups.map fun g q => .list q 0 (g.calls.map fun c q => c.expr.route inlined q))
  | .queryStmt _ query => query.route inlined (0 :: p)
  | .insertStmt _ _ rows query =>
    .one ⟨.table, p⟩ ++ .list (0 :: p) 0
      (rows.map fun row q => .list q 0 (row.map fun e q => e.route inlined q)) ++
      (match query with
      | none => .none
      | some e => e.route inlined (1 :: p))
  | .deleteStmt _ condition =>
    .one ⟨.table, p⟩ ++
      (match condition with
      | none => .none
      | some e => e.route inlined (0 :: p))
  | .updateStmt _ assignments condition =>
    .one ⟨.table, p⟩ ++ .list (0 :: p) 0 (assignments.map fun a q => a.value.route inlined q) ++
      (match condition with
      | none => .none
      | some e => e.route inlined (1 :: p))
termination_by n => sizeOf n
decreasing_by
  all_goals
    apply Node.sizeOf_lt_of_mem_children
    simp only [Node.children]
    grind [List.mem_flatten, Frame.offsets]

/-- The references of a tree in their order: what is visited where no function has a body. A call is
one unless the name of its function starts with `$` or is in the catalog, so a call of `a$b` is. -/
def Node.sites (n : Node) : List Site := n.route (fun _ => false) [] 0

end ResolvedSql
