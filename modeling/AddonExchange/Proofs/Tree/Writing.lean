import AddonExchange.Proofs.Text.Basic
import AddonExchange.Proofs.Tree.Copy
import AddonExchange.Tree.Writer

namespace AddonExchange

namespace Value

variable {first second : Value → Value}

private theorem changeList_changeList (key : Text) (first second : List Value → List Value)
    (value : Value) :
    (value.changeList key first).changeList key second =
      value.changeList key fun items => second (first items) := by
  cases value with
  | map entries =>
    rw [changeList, changeList, changeList, List.map_map]
    refine congrArg map (List.map_congr_left fun entry _ => ?_)
    obtain ⟨name, held⟩ := entry
    cases held with
    | list items => by_cases same : name = key <;> simp [same]
    | _ => rfl
  | _ => rfl

theorem changeAlong_append (change : Value → Value) (route rest : List Nat) (value : Value) :
    value.changeAlong change (route ++ rest) =
      value.changeAlong (changeAlong change rest) route := by
  induction route generalizing value with
  | nil => rfl
  | cons position later ih =>
    rw [List.cons_append, changeAlong, changeAlong, funext ih]

theorem changeAlong_changeAlong (first second : Value → Value) (route : List Nat) (value : Value) :
    (value.changeAlong first route).changeAlong second route =
      value.changeAlong (fun found => second (first found)) route := by
  induction route generalizing value with
  | nil => rfl
  | cons position rest ih =>
    rw [changeAlong, changeAlong, changeAlong, changeList_changeList]
    simp only [List.modify_modify_eq, Function.comp_def, ih]

end Value

namespace Dir

open Value

variable (escaped : Bool)

mutual

/-- A tree written at once. -/
def rendered : Dir → Value
  | ⟨name, files, dirs⟩ => valueWith escaped ⟨name, files, dirs⟩ (renderedAll dirs)

def renderedAll : List Dir → List Value
  | [] => []
  | dir :: rest => dir.rendered :: renderedAll rest

end

private theorem renderedAll_eq_map (dirs : List Dir) :
    renderedAll escaped dirs = dirs.map (rendered escaped) := by
  induction dirs with
  | nil => rfl
  | cons dir rest ih => rw [renderedAll, ih, List.map_cons]

private theorem rendered_eq (dir : Dir) :
    dir.rendered escaped = dir.valueWith escaped (dir.dirs.map (rendered escaped)) := by
  cases dir
  rw [rendered, renderedAll_eq_map]

/-- Does a task at once. -/
private def renderAt (written : Value) (task : CopyTask) : Value :=
  written.changeAlong (fun _ => task.source.rendered escaped) task.route

private theorem foldl_renderAt_under (change : Value → Value) (route : List Nat)
    (tasks : List CopyTask) (value : Value) :
    (tasks.map (CopyTask.under route)).foldl (renderAt escaped) (value.changeAlong change route) =
      value.changeAlong (fun found => tasks.foldl (renderAt escaped) (change found)) route := by
  induction tasks generalizing change with
  | nil => rfl
  | cons task rest ih =>
    rw [List.map_cons, List.foldl_cons, renderAt, CopyTask.under, Value.changeAlong_append,
      Value.changeAlong_changeAlong, ih]
    rfl

private theorem changeList_valueWith (dir : Dir) {children : List Value} (some : children ≠ [])
    (change : List Value → List Value) (kept : change children ≠ []) :
    (dir.valueWith escaped children).changeList "dir" change =
      dir.valueWith escaped (change children) := by
  have listed (children : List Value) (some : children ≠ []) :
      childEntry "dir" children = [(Text.ofString "dir", .list children)] := by
    simp [childEntry, some]
  rw [valueWith, valueWith, listed _ some, listed _ kept]
  cases dir.files <;> simp [changeList, childEntry, Text.ofString_eq_iff]

/-- Subdirectories that are written in their places, the last one first, after others. -/
private theorem foldl_renderAt_below (dir : Dir) (held : List Value) (dirs : List Dir) :
    (CopyTask.below [] held.length dirs).foldl (renderAt escaped)
        (dir.valueWith escaped (held ++ dirs.map nameValue)) =
      dir.valueWith escaped (held ++ dirs.map (rendered escaped)) := by
  induction dirs generalizing held with
  | nil => rfl
  | cons child rest ih =>
    have later := ih (held ++ [child.nameValue])
    rw [List.length_append, List.length_singleton] at later
    rw [CopyTask.below_cons, List.foldl_append, List.map_cons, List.append_cons, later,
      ← List.append_cons, List.foldl_cons, List.foldl_nil, renderAt]
    change (dir.valueWith escaped _).changeList "dir" _ = _
    rw [changeList_valueWith escaped dir (by simp) _ (by simp), List.modify_eq_take_drop,
      List.take_left, List.drop_left]
    rfl

private theorem writeFrom_eq_foldl (written : Value) (waiting : List CopyTask) :
    writeFrom escaped written waiting = waiting.foldl (renderAt escaped) written := by
  induction written, waiting using writeFrom.induct escaped with
  | case1 written => rw [writeFrom, List.foldl_nil]
  | case2 written source route waiting ih =>
    have below := foldl_renderAt_below escaped source [] source.dirs
    rw [List.nil_append, List.nil_append, ← rendered_eq] at below
    rw [writeFrom, ih, List.foldl_append, ← CopyTask.map_under_below, foldl_renderAt_under,
      List.foldl_cons]
    exact congrArg (waiting.foldl _) (congrArg (fun change => written.changeAlong change route)
      (funext fun _ => below))

theorem toValue_eq (dir : Dir) :
    dir.toValue escaped = dir.valueWith escaped (dir.dirs.map (toValue escaped)) := by
  have atOnce : toValue escaped = rendered escaped :=
    funext fun dir => writeFrom_eq_foldl escaped dir.nameValue [⟨dir, []⟩]
  rw [atOnce, rendered_eq]

end Dir

end AddonExchange
