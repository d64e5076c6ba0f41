import BoundSql.Toml.Document
import BoundSql.Toml.Writer

/-!
# Plain documents keep their arrangement

A document of assignments to single keys, followed by the entries of one array of tables with such
assignments of their own, is arranged already: its outline, read from the top, gives the statements
back in the order of the file and as they are spelled.
-/

namespace BoundSql.Toml

variable {key : String} {ss rest : List Statement}

/-- Assignments to single keys. -/
def Assignments (ss : List Statement) : Prop :=
  ∀ s ∈ ss, ∃ key v spelling, s = .assign key v spelling

namespace Outline

/-- The members that assignments to single keys add to a table. -/
def leaves (ss : List Statement) : Members :=
  ss.flatMap fun s => s.clause.path.keys.map fun key => (key, .value s)

/-! ## Building -/

theorem build_assignments (h : Assignments ss) (number : Nat) (members : Members)
    (rest : List Statement) :
    build [] number members (ss ++ rest) =
      build [] (number + ss.length) (members ++ leaves ss) rest := by
  induction ss generalizing number members with
  | nil => simp [leaves]
  | cons s ss ih =>
      obtain ⟨⟨key, v, spelling, rfl⟩, hss⟩ := List.forall_mem_cons.mp h
      have hadd : add [] number (.assign key v spelling) members =
          members ++ [(.bare key, .value (.assign key v spelling))] := rfl
      rw [List.cons_append, build, hadd]
      refine (ih hss _ _).trans ?_
      simp [leaves, Statement.assign, Clause.path, Path.bare, Nat.add_comm, Nat.add_left_comm]

/-- The members of a document that ends with an array of tables. -/
def withTables (front : Members) (key : String) (tables : List Outline) : Members :=
  front ++ [(.bare key, .array (.bare key []) tables)]

/-- No member has a key. -/
def Lacks (front : Members) (key : String) : Prop := ∀ m ∈ front, m.1.name ≠ key

theorem change_withTables {front : Members} (h : Lacks front key) (f : Option Outline → Outline)
    (tables : List Outline) :
    change (.bare key) f (withTables front key tables) =
      front ++ [(.bare key, f (some (.array (.bare key []) tables)))] := by
  unfold withTables
  induction front with
  | nil => exact if_pos rfl
  | cons m front ih =>
      obtain ⟨hm, hfront⟩ := List.forall_mem_cons.mp h
      have hne : ¬m.1.name = (Key.bare key).name := hm
      rw [List.cons_append, change, if_neg hne, ih hfront, List.cons_append]

theorem change_absent {front : Members} (h : Lacks front key) (f : Option Outline → Outline) :
    change (.bare key) f front = front ++ [(.bare key, f none)] := by
  induction front with
  | nil => rfl
  | cons m front ih =>
      obtain ⟨hm, hfront⟩ := List.forall_mem_cons.mp h
      have hne : ¬m.1.name = (Key.bare key).name := hm
      rw [change, if_neg hne, ih hfront, List.cons_append]

/-- An entry of the array with the number of its header. -/
def tableOf (key : String) (number : Nat) (members : Members) : Outline :=
  .table .header (some (number, .element key)) members

theorem build_members {front : Members} (hkey : Lacks front key) (h : Assignments ss)
    (done : List Outline) (header number : Nat) (members : Members) (rest : List Statement) :
    build [.bare key] number (withTables front key (done ++ [tableOf key header members]))
        (ss ++ rest) =
      build [.bare key] (number + ss.length)
        (withTables front key (done ++ [tableOf key header (members ++ leaves ss)])) rest := by
  induction ss generalizing number members with
  | nil => simp [leaves]
  | cons s ss ih =>
      obtain ⟨⟨k, v, spelling, rfl⟩, hss⟩ := List.forall_mem_cons.mp h
      have hadd : add [.bare key] number (.assign k v spelling)
          (withTables front key (done ++ [tableOf key header members])) =
            withTables front key (done ++ [tableOf key header
              (members ++ [(.bare k, .value (.assign k v spelling))])]) := by
        show change (.bare key) (enter .path (assign (.assign k v spelling))) _ = _
        rw [change_withTables hkey]
        simp [enter, tableOf, withTables]
        rfl
      rw [List.cons_append, build, hadd]
      refine (ih hss _ _).trans ?_
      simp [leaves, Statement.assign, Clause.path, Path.bare, Nat.add_comm, Nat.add_left_comm]

/-- The entries of an array as they are outlined, the first of them with a number. -/
def outlined (key : String) (number : Nat) : List (List Statement) → List Outline
  | [] => []
  | ss :: tables => tableOf key number (leaves ss) :: outlined key (number + 1 + ss.length) tables

/-- The statements of an array of tables. -/
def arrayStatements (key : String) (tables : List (List Statement)) : List Statement :=
  tables.flatMap fun ss => .element key :: ss

theorem build_arrayStatements {front : Members} (hkey : Lacks front key)
    {tables : List (List Statement)} (h : ∀ ss ∈ tables, Assignments ss) (current : List Key)
    (done : List Outline) (number : Nat) :
    build current number (withTables front key done) (arrayStatements key tables) =
      withTables front key (done ++ outlined key number tables) := by
  induction tables generalizing current done number with
  | nil => rw [outlined, List.append_nil]; rfl
  | cons ss tables ih =>
      obtain ⟨hss, htables⟩ := List.forall_mem_cons.mp h
      have hopen : add current number (.element key) (withTables front key done) =
          withTables front key (done ++ [tableOf key number []]) :=
        change_withTables hkey _ done
      have hmembers := build_members hkey hss done number (number + 1) []
        (arrayStatements key tables)
      rw [arrayStatements, List.flatMap_cons, List.cons_append, build, hopen]
      refine hmembers.trans ?_
      rw [ih htables]
      simp [outlined]

/-! ## Reading from the top -/

theorem memberAssignments_append (front back : Members) :
    memberAssignments [] (front ++ back) =
      memberAssignments [] front ++ memberAssignments [] back := by
  induction front with
  | nil => rfl
  | cons m front ih =>
      obtain ⟨key, o⟩ := m
      rw [List.cons_append, memberAssignments, memberAssignments, ih, List.append_assoc]

theorem memberAssignments_leaves (h : Assignments ss) : memberAssignments [] (leaves ss) = ss := by
  induction ss with
  | nil => rfl
  | cons s ss ih =>
      obtain ⟨⟨key, v, spelling, rfl⟩, hss⟩ := List.forall_mem_cons.mp h
      have hleaf : leaves (.assign key v spelling :: ss) =
          [(.bare key, .value (.assign key v spelling))] ++ leaves ss := rfl
      rw [hleaf, memberAssignments_append, ih hss]
      rfl

/-- Assignments make no parts of their own. -/
theorem memberParts_leaves (h : Assignments ss) (keys : List Key) (last : Nat) (back : Members) :
    memberParts keys last (leaves ss ++ back) = memberParts keys last back := by
  induction ss with
  | nil => rfl
  | cons s ss ih =>
      obtain ⟨⟨key, v, spelling, rfl⟩, hss⟩ := List.forall_mem_cons.mp h
      have hleaf : leaves (.assign key v spelling :: ss) ++ back =
          (.bare key, .value (.assign key v spelling)) :: (leaves ss ++ back) := rfl
      have hvalue : parts (keys ++ [.bare key]) last (.value (.assign key v spelling)) =
          ([], last) := by rw [parts]
      rw [hleaf, memberParts, hvalue, ih hss]
      rfl

theorem parts_tableOf (h : Assignments ss) (key : String) (number last : Nat) :
    parts [.bare key] last (tableOf key number (leaves ss)) =
      ([⟨number, .element key :: ss⟩], number) := by
  have hnone := memberParts_leaves h [.bare key] number []
  rw [List.append_nil] at hnone
  rw [tableOf, parts, hnone, memberAssignments_leaves h]
  · rfl
  · exact fun h => nomatch h

/-- The parts of the entries of an array. -/
def arrayParts (key : String) (number : Nat) : List (List Statement) → List Part
  | [] => []
  | ss :: tables =>
      ⟨number, .element key :: ss⟩ :: arrayParts key (number + 1 + ss.length) tables

theorem tableParts_outlined {tables : List (List Statement)} (h : ∀ ss ∈ tables, Assignments ss)
    (number last : Nat) :
    (tableParts [.bare key] last (outlined key number tables)).1 =
      arrayParts key number tables := by
  induction tables generalizing number last with
  | nil => rfl
  | cons ss tables ih =>
      obtain ⟨hss, htables⟩ := List.forall_mem_cons.mp h
      rw [outlined, tableParts, parts_tableOf hss, ih htables]
      rfl

theorem le_number_of_mem_arrayParts {tables : List (List Statement)} {number : Nat} {p : Part}
    (h : p ∈ arrayParts key number tables) : number ≤ p.number := by
  induction tables generalizing number with
  | nil => cases h
  | cons ss tables ih =>
      rcases List.mem_cons.mp h with rfl | h
      · exact Nat.le_refl number
      · have := ih h
        omega

/-- Headers are numbered in the order of the file. -/
theorem pairwise_arrayParts (key : String) (tables : List (List Statement)) (number : Nat) :
    (arrayParts key number tables).Pairwise fun a b => a.number ≤ b.number := by
  induction tables generalizing number with
  | nil => exact .nil
  | cons ss tables ih =>
      refine .cons (fun p hp => ?_) (ih _)
      have := le_number_of_mem_arrayParts hp
      show number ≤ p.number
      omega

theorem flatMap_arrayParts (key : String) (tables : List (List Statement)) (number : Nat) :
    (arrayParts key number tables).flatMap Part.statements = arrayStatements key tables := by
  induction tables generalizing number with
  | nil => rfl
  | cons ss tables ih =>
      rw [arrayParts, List.flatMap_cons, ih]
      rfl

theorem memberAssignments_withTables (h : Assignments ss) (key : String) (tables : List Outline) :
    memberAssignments [] (withTables (leaves ss) key tables) = ss := by
  rw [withTables, memberAssignments_append, memberAssignments_leaves h]
  exact List.append_nil ss

theorem memberParts_withTables (h : Assignments ss) {tables : List (List Statement)}
    (htables : ∀ ss ∈ tables, Assignments ss) (key : String) (number : Nat) :
    (memberParts [] 0 (withTables (leaves ss) key (outlined key number tables))).1 =
      arrayParts key number tables := by
  rw [withTables, memberParts_leaves h, memberParts, parts]
  refine (List.append_nil _).trans ?_
  exact tableParts_outlined htables number 0

/-- Parts that stand in the order of their numbers are read one after the other. -/
theorem toStatements_of_parts {members : Members} {found : List Part}
    (hparts : (memberParts [] 0 members).1 = found)
    (hsorted : found.Pairwise fun a b => a.number ≤ b.number) :
    toStatements members = memberAssignments [] members ++ found.flatMap Part.statements := by
  have hall : (⟨0, memberAssignments [] members⟩ :: found).Pairwise
      fun a b : Part => decide (a.number ≤ b.number) = true :=
    .cons (fun _ _ => decide_eq_true (Nat.zero_le _))
      (hsorted.imp fun h => decide_eq_true h)
  rw [toStatements, hparts, List.mergeSort_of_pairwise hall]
  rfl

/-- Once the first entry of the array has begun, everything behind it keeps its place. -/
theorem toStatements_opened (h : Assignments ss) {first : List Statement}
    {tables : List (List Statement)} (htables : ∀ ss ∈ first :: tables, Assignments ss)
    (hkey : Lacks (leaves ss) key) (number : Nat) :
    toStatements (build [.bare key] (number + 1)
        (withTables (leaves ss) key ([] ++ [tableOf key number []]))
        (first ++ arrayStatements key tables)) =
      ss ++ arrayStatements key (first :: tables) := by
  obtain ⟨hfirst, hothers⟩ := List.forall_mem_cons.mp htables
  have houtlined : [] ++ [tableOf key number ([] ++ leaves first)] ++
      outlined key (number + 1 + first.length) tables = outlined key number (first :: tables) := rfl
  rw [build_members hkey hfirst, build_arrayStatements hkey hothers, houtlined,
    toStatements_of_parts (memberParts_withTables h htables key number)
      (pairwise_arrayParts key _ number),
    memberAssignments_withTables h, flatMap_arrayParts]

end Outline

open Outline

/-- Assignments alone are arranged as they stand. -/
theorem arranged_assignments (h : Assignments ss) : arranged ss = ss := by
  have hbuild := build_assignments h 1 [] []
  have hnone := memberParts_leaves h [] 0 []
  rw [List.append_nil] at hbuild hnone
  rw [arranged, hbuild]
  show toStatements (leaves ss) = ss
  have hparts : (memberParts [] 0 (leaves ss)).1 = [] := by rw [hnone]; rfl
  rw [toStatements_of_parts hparts .nil, memberAssignments_leaves h]
  exact List.append_nil ss

/-- Assignments and the entries of an array behind them are arranged as they stand. -/
theorem arranged_arrayStatements (h : Assignments ss) {first : List Statement}
    {tables : List (List Statement)} (htables : ∀ ss ∈ first :: tables, Assignments ss)
    (hkey : Lacks (leaves ss) key) :
    arranged (ss ++ arrayStatements key (first :: tables)) =
      ss ++ arrayStatements key (first :: tables) := by
  have hopen (number : Nat) : add [] number (.element key) (leaves ss) =
      withTables (leaves ss) key ([] ++ [tableOf key number []]) := change_absent hkey _
  rw [arranged, build_assignments h, List.nil_append, arrayStatements, List.flatMap_cons,
    List.cons_append, Outline.build, hopen]
  exact toStatements_opened h htables hkey _

end BoundSql.Toml
