-- The compilation as a generator (`compileDeterministicFactSteps` of
-- `deterministic-facts/extraction/compile.js`): it hands out its progress, one report for each
-- phase and one for each material, also where the budget of records is spent.
import Traqen.CompileBudget
import Traqen.Lib.Yielding

open Js

namespace Traqen.CompileBudget

open FactIdentity Throwing Yielding

/-! ## Progress -/

structure Progress where
  phase : String
  completed : Nat
  total : Nat
  path : Option String
  deriving DecidableEq

/-- `progress(phase, completed, material)`: a path that is empty is left out. -/
def progress (total : Nat) (phase : String) (completed : Nat) (displayPath : Option String) :
    Progress :=
  { phase, completed, total, path := displayPath.filter fun text => text ≠ "" }

/-- The value as it is handed out. -/
def Progress.value (p : Progress) : Json :=
  .obj ([("phase", .str p.phase), ("completed", .num (.ofNat p.completed)),
    ("total", .num (.ofNat p.total))] ++ (p.path.map fun text => ("path", .str text)).toList)

/-! ## The generator -/

section Steps

variable (sha256 : String → String) (b : Budget) (total : Nat)

/-- The loop over the materials, with the count of those that are behind it. -/
def materialSteps (extract : Extractor) :
    Nat → List Material → Gen Progress State Thrown (Nat × List Material)
  | completed, [] => quiet (ret (completed, []))
  | completed, m :: ms =>
    andGo (quiet (addRoot sha256 b m)) fun m =>
    andGo (ensuring (quiet (boundMaterial sha256 b extract m))
      (progress total "MATERIALS" (completed + 1) m.input.displayPath)) fun _ =>
    andGo (materialSteps extract (completed + 1) ms) fun done => quiet (ret (done.1, m :: done.2))

/-- What each of the five relation phases calls. -/
structure RelationCalls where
  documentLinks : Relations
  javaScriptModules : Relations
  javaBindings : Relations
  testReferences : Relations
  endpointContracts : Relations

def relationshipPhases (calls : RelationCalls) : List (String × Relations) :=
  [("DOCUMENT_LINKS", calls.documentLinks), ("JAVASCRIPT_MODULES", calls.javaScriptModules),
    ("JAVA_BINDINGS", calls.javaBindings), ("TEST_REFERENCES", calls.testReferences),
    ("ENDPOINT_CONTRACTS", calls.endpointContracts)]

/-- The calls of one relation phase. -/
def relationPhase (relations : Relations) (materials : List Material) : Run Unit := fun s =>
  forEach (execRelation sha256 b materials) (relations s materials) s

def relationsRefused (before : Snapshot) : Run Unit := fun s =>
  limitRelations sha256 b (rollback before s)

/-- The relation phases in turn. Once the budget is spent, the phases that are left are handed out
behind the one gap for them all. -/
def relationSteps (before : Snapshot) (materials : List Material) (completed : Nat) :
    List (String × Relations) → Gen Progress State Thrown Unit
  | [] => quiet (ret ())
  | (phase, relations) :: later =>
    andGo (hand (progress total phase completed none)) fun _ =>
    guarded (relationPhase sha256 b relations materials)
      (fun _ => relationSteps before materials completed later)
      fun e =>
        if e = .ScopeRecordLimit then
          some (andGo (quiet (relationsRefused sha256 b before)) fun _ =>
            handAll (later.map fun p => progress total p.1 completed none))
        else none

end Steps

def sortPhases : List String :=
  ["SORT_OBJECTS", "SORT_EVIDENCE", "SORT_FACTS", "SORT_GAPS", "RESULT"]

/-- `const beforeRelationships = snapshot()`. -/
def snapshotNow : Run Snapshot := fun s => (.ok (snapshot s), s)

def sorted (materials : List Material) : Run Result := fun s => (.ok (resultOf materials s), s)

section Compile

variable (sha256 : String → String) (input : Input) (extract : Extractor) (calls : RelationCalls)

/-- All that can end the compilation: the materials, and the relations between them. -/
def bodySteps : Gen Progress State Thrown (Nat × List Material) :=
  let total := input.materials.length
  let b := budgetOf input
  andGo (hand (progress total "NORMALIZE" 0 none)) fun _ =>
  andGo (quiet (lift (checkBudget input))) fun _ =>
  andGo (quiet (lift (identified (normalized sha256 input)))) fun materials =>
  andGo (hand (progress total "MATERIALS" 0 none)) fun _ =>
  andGo (materialSteps sha256 b total extract 0 materials) fun done =>
  andGo (quiet snapshotNow) fun before =>
  andGo (relationSteps sha256 b total before done.2 done.1 (relationshipPhases calls)) fun _ =>
  quiet (ret done)

/-- `compileDeterministicFactSteps`. -/
def compileSteps : Gen Progress State Thrown Result :=
  andGo (bodySteps sha256 input extract calls) fun done =>
  andGo (handAll (sortPhases.map fun phase => progress input.materials.length phase done.1 none))
    fun _ => quiet (sorted done.2)

end Compile

/-! ## The result is that of the compilation -/

section Result

variable (sha256 : String → String) (b : Budget) (total : Nat)

theorem result_materialSteps (extract : Extractor) (completed : Nat) (ms : List Material) :
    result (materialSteps sha256 b total extract completed ms) =
      andThen (compileMaterials sha256 b extract ms) fun done =>
        ret (completed + done.length, done) := by
  induction ms generalizing completed with
  | nil => rfl
  | cons m ms ih =>
    funext s
    unfold materialSteps compileMaterials compileMaterial
    simp only [result_andGo, result_quiet, result_ensuring, ih, andThen, ret]
    rcases addRoot sha256 b m s with ⟨_ | m, t⟩
    · rfl
    · dsimp only
      rcases boundMaterial sha256 b extract m t with ⟨_ | _, u⟩
      · rfl
      · dsimp only
        rcases compileMaterials sha256 b extract ms u with ⟨_ | done, v⟩
        · rfl
        · simp only [List.length_cons, Nat.add_comm done.length 1, Nat.add_assoc]

/-- The calls of the relation phases as one sequence: each phase sees what the ones before left. -/
def joined (materials : List Material) : List Relations → State → List (Nat × Call)
  | [], _ => []
  | relations :: later, s =>
    relations s materials ++
      match forEach (execRelation sha256 b materials) (relations s materials) s with
      | (.ok (), t) => joined materials later t
      | (.error _, _) => []

/-- The relation phases end as the sequence of all their calls does. -/
theorem result_relationSteps (before : Snapshot) (materials : List Material) (completed : Nat)
    (phases : List (String × Relations)) (s : State) :
    result (relationSteps sha256 b total before materials completed phases) s =
      match forEach (execRelation sha256 b materials)
          (joined sha256 b materials (phases.map (·.2)) s) s with
      | (.error .ScopeRecordLimit, t) => limitRelations sha256 b (rollback before t)
      | ended => ended := by
  induction phases generalizing s with
  | nil => rfl
  | cons phase later ih =>
    obtain ⟨name, relations⟩ := phase
    rw [List.map_cons, joined, forEach_append, relationSteps, result_andGo, result_hand]
    simp only [andThen, ret, result, guarded, relationPhase]
    rcases h : forEach (execRelation sha256 b materials) (relations s materials) s with ⟨e | _, t⟩
    · cases e with
      | ScopeRecordLimit =>
        simp only [if_true, Option.getD_some, andGo, quiet, relationsRefused, handAll]
        rcases limitRelations sha256 b (rollback before t) with ⟨_ | _, u⟩
        · rfl
        · rfl
      | Failed failure => rfl
      | F002Error code message status => rfl
    · exact ih t

theorem result_relations (materials : List Material) (completed : Nat)
    (phases : List (String × Relations)) (s : State) :
    result (relationSteps sha256 b total (snapshot s) materials completed phases) s =
      relate sha256 b (fun s materials => joined sha256 b materials (phases.map (·.2)) s)
        materials s :=
  result_relationSteps sha256 b total (snapshot s) materials completed phases s

/-- Run to its end, the generator gives what `compileDeterministicFacts` gives. -/
theorem result_compileSteps (input : Input) (extract : Extractor) (calls : RelationCalls) :
    (result (compileSteps sha256 input extract calls) initial).1 =
      compile sha256 input extract fun s materials =>
        joined sha256 (budgetOf input) materials ((relationshipPhases calls).map (·.2)) s := by
  unfold compileSteps bodySteps compile
  simp only [result_andGo, result_quiet, result_hand, result_handAll, result_materialSteps, andThen,
    ret, lift]
  rcases checkBudget input with _ | _
  · rfl
  · dsimp only
    rcases identified (normalized sha256 input) with _ | materials
    · rfl
    · dsimp only [Bind.bind, Except.bind]
      rcases compileMaterials sha256 (budgetOf input) extract materials initial with ⟨_ | done, s⟩
      · rfl
      · dsimp only [snapshotNow]
        rw [result_relations]
        rcases relate sha256 (budgetOf input) _ done s with ⟨_ | _, t⟩
        · rfl
        · rfl

end Result

/-! ## The script of the progress -/

section Script

variable (sha256 : String → String) (b : Budget) (total : Nat)

/-- A report without its path. -/
def Progress.mark (p : Progress) : String × Nat × Nat := (p.phase, p.completed, p.total)

theorem count_materialSteps (extract : Extractor) {completed : Nat} {ms : List Material}
    {s t : State} {done : Nat × List Material}
    (h : (materialSteps sha256 b total extract completed ms s).2 = (.ok done, t)) :
    done.1 = completed + ms.length := by
  induction ms generalizing completed s t done with
  | nil =>
    cases h
    rfl
  | cons m ms ih =>
    have hrun : result (materialSteps sha256 b total extract completed (m :: ms)) s =
        (.ok done, t) := h
    rw [materialSteps, result_andGo] at hrun
    obtain ⟨m', u, -, hrun⟩ := andThen_ok hrun
    rw [result_andGo] at hrun
    obtain ⟨-, v, -, hrun⟩ := andThen_ok hrun
    rw [result_andGo] at hrun
    obtain ⟨rest, w, hrest, hrun⟩ := andThen_ok hrun
    have hcount := ih hrest
    cases hrun
    rw [hcount, List.length_cons]
    omega

theorem scripted_materialSteps (extract : Extractor) (completed : Nat) (ms : List Material) :
    Scripted Progress.mark (materialSteps sha256 b total extract completed ms)
      ((List.range' (completed + 1) ms.length).map fun count => ("MATERIALS", count, total)) := by
  induction ms generalizing completed with
  | nil => exact scripted_quiet _
  | cons m ms ih =>
    rw [List.length_cons, List.range'_succ, List.map_cons]
    apply scripted_behind
    intro _ m _ _
    apply scripted_ensured
    intro _
    exact scripted_before _ (ih (completed + 1))

theorem scripted_relationSteps (before : Snapshot) (materials : List Material) (completed : Nat)
    (phases : List (String × Relations)) :
    Scripted Progress.mark (relationSteps sha256 b total before materials completed phases)
      (phases.map fun phase => (phase.1, completed, total)) := by
  induction phases with
  | nil => exact scripted_quiet _
  | cons phase later ih =>
    obtain ⟨name, relations⟩ := phase
    apply scripted_handed
    apply scripted_guarded fun _ => ih
    intro e g hcaught
    split_ifs at hcaught
    cases hcaught
    apply scripted_behind
    intro _ _ _ _
    have hleft := scripted_handAll (σ := State) (ε := Thrown) (f := Progress.mark)
      (later.map fun p => progress total p.1 completed none)
    rw [List.map_map] at hleft
    exact hleft

end Script

section Compile

variable (sha256 : String → String) (input : Input) (extract : Extractor) (calls : RelationCalls)

theorem length_normalized {materials : List Material} {s t : State}
    (h : lift (identified (normalized sha256 input)) s = (.ok materials, t)) :
    materials.length = input.materials.length := by
  unfold lift normalized identified at h
  cases hm : input.materials.mapM (materialOf sha256 input.workspaceId input.bundleId) with
  | error e =>
    rw [hm] at h
    cases h
  | ok ms =>
    rw [hm] at h
    cases h
    rw [List.length_insertionSort]
    exact (mapM_ok hm).length_eq.symm

/-- What comes before the sorting: the materials are counted from `0`. -/
def bodyScript (n : Nat) : List (String × Nat × Nat) :=
  ("NORMALIZE", 0, n) :: ("MATERIALS", 0, n) ::
    ((List.range' 1 n).map (fun count => ("MATERIALS", count, n)) ++
      ["DOCUMENT_LINKS", "JAVASCRIPT_MODULES", "JAVA_BINDINGS", "TEST_REFERENCES",
        "ENDPOINT_CONTRACTS"].map fun phase => (phase, n, n))

theorem scripted_bodySteps : Scripted Progress.mark (bodySteps sha256 input extract calls)
    (bodyScript input.materials.length) := by
  unfold bodySteps
  apply scripted_handed
  apply scripted_behind
  intro _ _ _ _
  apply scripted_behind
  intro _ materials _ hnormalized
  have hlength := length_normalized sha256 input hnormalized
  apply scripted_handed
  rw [← hlength]
  apply scripted_andGo (scripted_materialSteps sha256 (budgetOf input) _ extract 0 materials)
  intro _ done _ hdone
  have hcount := count_materialSteps _ _ _ _ hdone
  rw [Nat.zero_add] at hcount
  apply scripted_behind
  intro _ before _ _
  apply scripted_before
  rw [hcount]
  exact scripted_relationSteps _ _ _ _ _ _ (relationshipPhases calls)

/-- The whole script: the phases behind the materials have them all. -/
def script (n : Nat) : List (String × Nat × Nat) :=
  bodyScript n ++ sortPhases.map fun phase => (phase, n, n)

theorem no_result_in_body (n : Nat) : "RESULT" ∉ (bodyScript n).map (·.1) := by
  simp [bodyScript]

theorem count_bodySteps {s t : State} {done : Nat × List Material}
    (h : (bodySteps sha256 input extract calls s).2 = (.ok done, t)) :
    done.1 = input.materials.length := by
  have hrun : result (bodySteps sha256 input extract calls) s = (.ok done, t) := h
  rw [bodySteps, result_andGo] at hrun
  obtain ⟨-, _, -, hrun⟩ := andThen_ok hrun
  rw [result_andGo] at hrun
  obtain ⟨-, _, -, hrun⟩ := andThen_ok hrun
  rw [result_andGo] at hrun
  obtain ⟨materials, _, hnormalized, hrun⟩ := andThen_ok hrun
  rw [result_andGo] at hrun
  obtain ⟨-, _, -, hrun⟩ := andThen_ok hrun
  rw [result_andGo] at hrun
  obtain ⟨counted, _, hmaterials, hrun⟩ := andThen_ok hrun
  rw [result_andGo] at hrun
  obtain ⟨before, _, -, hrun⟩ := andThen_ok hrun
  rw [result_andGo] at hrun
  obtain ⟨-, _, -, hrun⟩ := andThen_ok hrun
  cases hrun
  rw [count_materialSteps _ _ _ _ hmaterials, Nat.zero_add]
  exact length_normalized sha256 input hnormalized

theorem scripted_compileSteps : Scripted Progress.mark (compileSteps sha256 input extract calls)
    (script input.materials.length) := by
  apply scripted_andGo (scripted_bodySteps sha256 input extract calls)
  intro s done t hdone
  apply scripted_before
  have hphases := scripted_handAll (σ := State) (ε := Thrown) (f := Progress.mark)
    (sortPhases.map fun phase => progress input.materials.length phase done.1 none)
  rw [List.map_map, count_bodySteps sha256 input extract calls hdone] at hphases
  rw [count_bodySteps sha256 input extract calls hdone]
  exact hphases

/-- The last phase is handed out exactly where the compilation has a result. -/
theorem result_handed_iff :
    "RESULT" ∈ (compileSteps sha256 input extract calls initial).1.map (·.phase) ↔
      ∃ r, (result (compileSteps sha256 input extract calls) initial).1 = .ok r := by
  obtain ⟨hbegun, -⟩ := scripted_bodySteps sha256 input extract calls initial
  have hbody : result (bodySteps sha256 input extract calls) initial =
      (bodySteps sha256 input extract calls initial).2 := rfl
  rcases h : (bodySteps sha256 input extract calls initial).2 with ⟨e | done, t⟩
  · rw [compileSteps, values_of_error h, result_andGo, andThen, hbody, h]
    constructor
    · intro hlast
      have hmarks : ((bodySteps sha256 input extract calls initial).1.map (·.phase)) =
          ((bodySteps sha256 input extract calls initial).1.map Progress.mark).map (·.1) := by
        rw [List.map_map]
        rfl
      rw [hmarks] at hlast
      exact absurd ((hbegun.map _).subset hlast) (no_result_in_body _)
    · rintro ⟨r, hr⟩
      cases hr
  · rw [compileSteps, values_of_ok h, result_andGo, andThen, hbody, h]
    constructor
    · intro _
      exact ⟨_, rfl⟩
    · intro _
      rw [List.map_append]
      apply List.mem_append_right
      have hhanded : ((andGo (handAll (sortPhases.map fun phase =>
          progress input.materials.length phase done.1 none)) fun _ => quiet (sorted done.2) :
            Gen Progress State Thrown Result) t).1 = sortPhases.map fun phase =>
          progress input.materials.length phase done.1 none := List.append_nil _
      rw [hhanded, List.map_map]
      exact List.mem_map_of_mem (f := fun phase : String => phase) (by decide)

end Compile

end Traqen.CompileBudget
