-- The protocol between the parser and its watchdog: what `compileDeterministicFactSteps` hands out
-- is what `createParserDeadline` takes, and nothing that leaves a phase out is ever complete.
import Traqen.CompileSteps
import Traqen.ParserDeadline

open Js

namespace Traqen.ParserProtocol

open BusinessGraph (safeInteger)
open ParserDeadline
open CompileBudget (bodyScript sortPhases compileSteps initial compile joined budgetOf bodySteps)

/-! ## Reports -/

/-- What a report says. -/
structure Report where
  phase : String
  completed : Int
  total : Int
  deriving DecidableEq

structure Says (value : Json) (r : Report) : Prop where
  phase : field (some value) "phase" = some (.str r.phase)
  completed : safeInteger (field (some value) "completed") = some r.completed
  total : field (some value) "total" = some (.num (.ofInt r.total))

/-- The counts of the materials: from none up to a count, each above the one before. -/
structure Rising (counts : List Int) (last : Int) : Prop where
  first : counts.head? = some 0
  last : counts.getLast? = some last
  above : counts.Pairwise (· < ·)

section Protocol

variable (n : Int)

def normalizeReport : Report := ⟨"NORMALIZE", 0, n⟩

def materialReport (count : Int) : Report := ⟨"MATERIALS", count, n⟩

def phaseReport (phase : String) : Report := ⟨phase, n, n⟩

/-- A whole run: every phase in its order, and the counts of the materials from `0` to `n`. -/
def Protocol (reports : List Report) : Prop :=
  ∃ counts, Rising counts n ∧
    reports = normalizeReport n :: counts.map (materialReport n) ++
      (parserPhases.drop 2).map (phaseReport n)

/-- How far the reports have come. -/
inductive Trail : List Report → Int → Int → Prop
  | startup : Trail [] (-1) 0
  | begun : Trail [normalizeReport n] 0 0
  | taken {counts : List Int} {count : Int} (h : Rising counts count) :
      Trail (normalizeReport n :: counts.map (materialReport n)) 1 count
  | reached {counts : List Int} {k : Nat} (h : Rising counts n) (hk : k < 10) :
      Trail (normalizeReport n :: counts.map (materialReport n) ++
        ((parserPhases.drop 2).take (k + 1)).map (phaseReport n)) (k + 2) n

end Protocol

variable {n : Int}

theorem le_last {counts : List Int} {last : Int} (habove : counts.Pairwise (· < ·))
    (hlast : counts.getLast? = some last) : ∀ a ∈ counts, a ≤ last := by
  obtain ⟨front, rfl⟩ := List.getLast?_eq_some_iff.mp hlast
  intro a ha
  rcases List.mem_append.mp ha with hin | hin
  · have hbefore := (List.pairwise_append.mp habove).2.2 a hin last (List.mem_singleton_self _)
    exact hbefore.le
  · rw [List.mem_singleton.mp hin]

variable {completed count phase : Int}

theorem Rising.append {counts : List Int} {more : Int} (h : Rising counts count)
    (hmore : count < more) : Rising (counts ++ [more]) more := by
  obtain ⟨hfirst, hlast, habove⟩ := h
  refine ⟨by rw [List.head?_append, hfirst]; rfl, by simp, ?_⟩
  apply List.pairwise_append.mpr
  refine ⟨habove, List.pairwise_singleton _ _, fun a ha b hb => ?_⟩
  rw [List.mem_singleton.mp hb]
  exact (le_last habove hlast a ha).trans_lt hmore

/-! ## What a report that is taken can be -/

structure Move (n phase completed : Int) (r : Report) (next : Nat) : Prop where
  total : r.total = n
  named : parserPhases[next]? = some r.phase
  low : completed ≤ r.completed
  high : r.completed ≤ n
  order : (next : Int) = phase ∧ next = 1 ∧ completed < r.completed ∨ (next : Int) = phase + 1
  begun : next = 0 → r.completed = 0
  taken : next = 1 → phase = 0 → r.completed = 0
  reached : 1 < next → completed = n ∧ r.completed = n

theorem phases_nodup : parserPhases.Nodup := by decide

theorem index_of_named {name : String} {i : Nat} (h : parserPhases[i]? = some name) :
    parserPhases.idxOf? name = some i := by
  obtain ⟨hi, hname⟩ := List.getElem?_eq_some_iff.mp h
  refine List.idxOf?_eq_some_iff.mpr ⟨hi, hname, fun j hj hsame => ?_⟩
  have hindex := (List.Nodup.getElem_inj_iff phases_nodup).mp (hsame.trans hname.symm)
  omega

theorem phaseIndex_named {name : String} {i : Nat} (h : parserPhases[i]? = some name) :
    phaseIndex (some (.str name)) = i := by
  unfold phaseIndex
  dsimp only
  rw [index_of_named h]
  rfl

theorem named_of_phaseIndex {phase : Option Json} (h : phaseIndex phase ≠ -1) :
    ∃ (name : String) (i : Nat), phase = some (.str name) ∧ parserPhases[i]? = some name := by
  cases phase with
  | none => exact absurd rfl h
  | some v =>
    cases v with
    | str name =>
      unfold phaseIndex at h
      cases hi : parserPhases.idxOf? name with
      | none =>
        dsimp only at h
        rw [hi] at h
        exact absurd rfl h
      | some i =>
        obtain ⟨hlt, hname, -⟩ := List.idxOf?_eq_some_iff.mp hi
        exact ⟨name, i, rfl, List.getElem?_eq_some_iff.mpr ⟨hlt, hname⟩⟩
    | null => exact absurd rfl h
    | bool b => exact absurd rfl h
    | num x => exact absurd rfl h
    | arr items => exact absurd rfl h
    | obj fields => exact absurd rfl h

/-- A report is taken exactly where its phase and its count may come next. -/
theorem accepted_iff {next : Int} {value : Json} :
    accepted n phase completed value = some (next, count) ↔
      ∃ r i, Says value r ∧ Move n phase completed r i ∧ next = Int.ofNat i ∧
        count = r.completed := by
  constructor
  · intro h
    unfold accepted at h
    by_cases hvalue : truthy (some value) = false ∨
        field (some value) "total" ≠ some (.num (.ofInt n))
    · rw [if_pos hvalue] at h
      cases h
    rw [if_neg hvalue] at h
    have htotal := not_not.mp (not_or.mp hvalue).2
    cases hcount : safeInteger (field (some value) "completed") with
    | none =>
      rw [hcount] at h
      cases h
    | some c =>
      rw [hcount] at h
      dsimp only at h
      split_ifs at h with hrange horder hagain hbegun htaken hreached
      obtain ⟨name, i, hname, hphase⟩ := named_of_phaseIndex (not_or.mp horder).1
      rw [hname, phaseIndex_named hphase] at h horder hagain hbegun htaken hreached
      cases h
      refine ⟨⟨name, count, n⟩, i, ⟨hname, hcount, htotal⟩, ⟨rfl, hphase, ?_, ?_, ?_, ?_, ?_, ?_⟩,
        rfl, rfl⟩
      all_goals dsimp only
      all_goals omega
  · rintro ⟨r, i, hread, hmove, rfl, rfl⟩
    obtain ⟨hphase, hcount, htotal⟩ := hread
    obtain ⟨hn, hnamed, hlow, hhigh, horder, hbegun, htaken, hreached⟩ := hmove
    have htruthy : truthy (some value) = true := by
      cases value with
      | obj fields => rfl
      | _ => cases hphase
    unfold accepted
    rw [if_neg (by simp [htruthy, htotal, hn]), hcount, hphase, phaseIndex_named hnamed]
    dsimp only
    rw [if_neg (by omega), if_neg (by omega), if_neg (by omega), if_neg (by omega),
      if_neg (by omega), if_neg (by omega)]
    rfl

/-! ## What was taken leaves no phase out -/

variable {reports : List Report}

theorem trail_step {next : Int} {value : Json} (h : Trail n reports phase completed)
    (hnext : accepted n phase completed value = some (next, count)) :
    ∃ r, Says value r ∧ Trail n (reports ++ [r]) next count := by
  obtain ⟨⟨name, c, total⟩, i, hread, hmove, rfl, rfl⟩ := accepted_iff.mp hnext
  refine ⟨_, hread, ?_⟩
  obtain ⟨htotal, hnamed, hlow, hhigh, horder, hbegun, htaken, hreached⟩ := hmove
  dsimp only at htotal hnamed hlow hhigh horder hbegun htaken hreached ⊢
  subst htotal
  cases h with
  | startup =>
    have hi : i = 0 := by omega
    have hc : count = 0 := hbegun hi
    subst hi hc
    cases hnamed
    exact .begun
  | begun =>
    have hi : i = 1 := by omega
    have hc : count = 0 := htaken hi rfl
    subst hi hc
    cases hnamed
    have hnone : Rising [0] 0 := ⟨rfl, rfl, List.pairwise_singleton _ _⟩
    exact .taken hnone
  | @taken counts _ hrising =>
    rcases horder with ⟨-, hi, habove⟩ | hi
    · subst hi
      cases hnamed
      have hmore := Trail.taken (n := total) (hrising.append habove)
      rw [List.map_append] at hmore
      exact hmore
    · have hi : i = 2 := by omega
      subst hi
      obtain ⟨rfl, rfl⟩ := hreached (by decide)
      cases hnamed
      exact .reached (k := 0) hrising (by decide)
  | @reached counts k hrising hk =>
    have hi : i = k + 3 := by omega
    subst hi
    obtain ⟨-, rfl⟩ := hreached (by omega)
    obtain ⟨hlt, -⟩ := List.getElem?_eq_some_iff.mp hnamed
    have hshort : k + 3 < 12 := hlt
    have hlast : ((parserPhases.drop 2).take (k + 1 + 1)) =
        (parserPhases.drop 2).take (k + 1) ++ [name] := by
      rw [List.take_add_one, List.getElem?_drop]
      have hplace : 2 + (k + 1) = k + 3 := by omega
      rw [hplace, hnamed]
      rfl
    have hmore := Trail.reached (k := k + 1) hrising (by omega)
    rw [hlast, List.map_append, ← List.append_assoc] at hmore
    have hcast : ((k + 1 : Nat) : Int) + 2 = Int.ofNat (k + 3) := by
      show ((k + 1 : Nat) : Int) + 2 = ((k + 3 : Nat) : Int)
      omega
    rw [hcast] at hmore
    exact hmore

variable {values : List Json}

/-- Reports that were all taken have come some way on the trail. -/
theorem trail_of_track (h : track n (-1, 0) values = some (phase, completed)) :
    ∃ reports, List.Forall₂ Says values reports ∧ Trail n reports phase completed := by
  induction values using List.reverseRecOn generalizing phase completed with
  | nil =>
    cases h
    exact ⟨[], .nil, .startup⟩
  | append_singleton values value ih =>
    rw [track, List.foldlM_append] at h
    cases hbefore : track n (-1, 0) values with
    | none =>
      rw [track] at hbefore
      rw [hbefore] at h
      cases h
    | some place =>
      obtain ⟨reports, hread, htrail⟩ := ih hbefore
      rw [track] at hbefore
      rw [hbefore] at h
      have hlast : accepted n place.1 place.2 value = some (phase, completed) := by
        simpa [List.foldlM] using h
      obtain ⟨r, hr, hmore⟩ := trail_step htrail hlast
      exact ⟨reports ++ [r], List.rel_append hread (.cons hr .nil), hmore⟩

theorem Trail.protocol (h : Trail n reports 11 n) : Protocol n reports := by
  generalize hphase : (11 : Int) = phase at h
  cases h with
  | startup => cases hphase
  | begun => cases hphase
  | taken _ => cases hphase
  | @reached counts k hrising hk =>
    have hlast : k = 9 := by omega
    subst hlast
    exact ⟨counts, hrising, rfl⟩

/-- The last phase is reported exactly at the end of the trail. -/
theorem Trail.complete_iff (h : Trail n reports phase completed) :
    (phase = 11 ∧ completed = n) ↔ "RESULT" ∈ reports.map (·.phase) := by
  cases h with
  | startup => simp
  | begun => simp [normalizeReport]
  | taken _ => simp [normalizeReport, materialReport]
  | @reached counts k hrising hk =>
    have hphases : (((parserPhases.drop 2).take (k + 1)).map (phaseReport n)).map (·.phase) =
        (parserPhases.drop 2).take (k + 1) := by
      rw [List.map_map]
      exact List.map_id _
    have hresult : "RESULT" ∈ (parserPhases.drop 2).take (k + 1) ↔ k = 9 := by
      interval_cases k <;> decide
    rw [List.map_append, List.mem_append, hphases, hresult]
    have hno : "RESULT" ∉ (normalizeReport n :: counts.map (materialReport n)).map (·.phase) := by
      simp [normalizeReport, materialReport]
    simp only [hno, false_or, and_true]
    omega

/-! ## A whole run is taken -/

theorem track_cons {place moved : Int × Int} {value : Json}
    (h : accepted n place.1 place.2 value = some moved) :
    track n place (value :: values) = track n moved values := by
  unfold track
  rw [List.foldlM_cons, h]
  rfl

/-- The counts of the materials, each above the one before. -/
theorem track_counts {counts : List Int} {last : Int}
    (hread : List.Forall₂ Says values (counts.map (materialReport n)))
    (habove : (count :: counts).Pairwise (· < ·)) (hlast : (count :: counts).getLast? = some last)
    (hmost : last ≤ n) : track n (1, count) values = some (1, last) := by
  induction counts generalizing count values with
  | nil =>
    cases hread
    cases hlast
    rfl
  | cons more counts ih =>
    obtain ⟨hfirst, habove⟩ := List.pairwise_cons.mp habove
    rw [List.getLast?_cons_cons] at hlast
    have hmore : count < more := hfirst more List.mem_cons_self
    have hle : more ≤ last := le_last habove hlast more List.mem_cons_self
    cases hread with
    | cons hv hvs =>
      have hmove : Move n 1 count (materialReport n more) 1 :=
        ⟨rfl, rfl, hmore.le, hle.trans hmost, .inl ⟨rfl, rfl, hmore⟩, by omega, by omega, by omega⟩
      rw [track_cons (accepted_iff.mpr ⟨_, 1, hv, hmove, rfl, rfl⟩)]
      exact ih hvs habove hlast

/-- The phases behind the materials, each with all of them. -/
theorem track_phases {k : Nat} (hk : k ≤ 10)
    (hread : List.Forall₂ Says values ((parserPhases.drop (k + 2)).map (phaseReport n))) :
    track n (k + 1, n) values = some (11, n) := by
  induction hleft : 10 - k generalizing k values with
  | zero =>
    have hlast : k = 10 := by omega
    subst hlast
    cases hread
    rfl
  | succ left ih =>
    have hshort : k + 2 < parserPhases.length := by
      show k + 2 < 12
      omega
    rw [List.drop_eq_getElem_cons hshort, List.map_cons] at hread
    cases hread with
    | cons hv hvs =>
      have hmove : Move n (k + 1) n (phaseReport n parserPhases[k + 2]) (k + 2) :=
        ⟨rfl, List.getElem?_eq_getElem hshort, le_refl n, le_refl n, .inr (by omega), by omega,
          by omega, fun _ => ⟨rfl, rfl⟩⟩
      rw [track_cons (accepted_iff.mpr ⟨_, k + 2, hv, hmove, rfl, rfl⟩)]
      exact ih (k := k + 1) (by omega) hvs (by omega)

/-- A whole run is taken to its end. -/
theorem track_protocol (hread : List.Forall₂ Says values reports) (h : Protocol n reports) :
    track n (-1, 0) values = some (11, n) := by
  obtain ⟨counts, ⟨hfirst, hlast, habove⟩, rfl⟩ := h
  obtain ⟨counts, rfl⟩ : ∃ rest, counts = 0 :: rest := by
    cases counts with
    | nil => cases hfirst
    | cons count rest =>
      cases hfirst
      exact ⟨rest, rfl⟩
  have hn : 0 ≤ n := le_last habove hlast 0 List.mem_cons_self
  rw [List.map_cons, List.cons_append, List.cons_append] at hread
  rcases hread with _ | ⟨hnormalize, hread⟩
  rcases hread with _ | @⟨_, _, values, _, hnone, hread⟩
  have hnormalizing : Move n (-1) 0 (normalizeReport n) 0 :=
    ⟨rfl, rfl, le_refl 0, hn, .inr (by omega), fun _ => rfl, by omega, by omega⟩
  have hbeginning : Move n 0 0 (materialReport n 0) 1 :=
    ⟨rfl, rfl, le_refl 0, hn, .inr (by omega), by omega, fun _ _ => rfl, by omega⟩
  rw [track_cons (accepted_iff.mpr ⟨_, 0, hnormalize, hnormalizing, rfl, rfl⟩),
    track_cons (accepted_iff.mpr ⟨_, 1, hnone, hbeginning, rfl, rfl⟩)]
  have hcounts := List.forall₂_take_append _ _ _ hread
  have hphases := List.forall₂_drop_append _ _ _ hread
  rw [← List.take_append_drop (counts.map (materialReport n)).length values, track,
    List.foldlM_append]
  have htaken := track_counts hcounts habove hlast (le_refl n)
  rw [track] at htaken
  have hstart : (Int.ofNat 1, (materialReport n 0).completed) = (1, 0) := rfl
  rw [hstart, htaken]
  exact track_phases (k := 0) (by decide) hphases

/-! ## What the compilation hands out -/

open CompileBudget (Progress script)

def markReport (mark : String × Nat × Nat) : Report := ⟨mark.1, mark.2.1, mark.2.2⟩

theorem protocol_script (n : Nat) : Protocol n ((script n).map markReport) := by
  refine ⟨(List.range' 0 (n + 1)).map Int.ofNat, ⟨?_, ?_, ?_⟩, ?_⟩
  · rw [List.range'_succ]
    rfl
  · rw [List.getLast?_map, List.getLast?_range']
    simp
  · apply List.pairwise_map.mpr
    exact (List.pairwise_lt_range' (s := 0) (n := n + 1)).imp fun h => Int.ofNat_lt.mpr h
  · rw [List.range'_succ]
    unfold script bodyScript
    simp [markReport, normalizeReport, materialReport, phaseReport, parserPhases,
      sortPhases, Function.comp_def]

theorem says_progress {p : Progress} (hp : p.completed < 2 ^ 53) :
    Says p.value (markReport p.mark) := by
  have hnumber : Number.ofInt p.total = Number.ofNat p.total := by
    unfold Number.ofInt
    rw [if_neg (by omega)]
    rfl
  refine ⟨rfl, ?_, ?_⟩
  · exact BusinessGraph.safeInteger_ofNat hp
  · show some (Json.num (Number.ofNat p.total)) = some (.num (.ofInt p.total))
    rw [hnumber]

theorem script_completed {n : Nat} : ∀ mark ∈ script n, mark.2.1 ≤ n := by
  intro mark hmark
  unfold script bodyScript at hmark
  rcases List.mem_append.mp hmark with hbody | hlast
  · simp only [List.mem_cons, List.mem_append, List.mem_map, List.mem_range'_1] at hbody
    rcases hbody with rfl | rfl | ⟨count, hcount, rfl⟩ | ⟨phase, -, rfl⟩
    · exact Nat.zero_le n
    · exact Nat.zero_le n
    · show count ≤ n
      omega
    · exact le_refl n
  · obtain ⟨phase, -, rfl⟩ := List.mem_map.mp hlast
    exact le_refl n

/-- What was handed out can be continued to a whole run. -/
theorem handed_out_tracked {n : Nat} (hn : n ≤ 200000) {handed : List Progress}
    (h : handed.map Progress.mark <+: script n) :
    ∃ place, track n (-1, 0) (handed.map Progress.value) = some place := by
  obtain ⟨rest, hrest⟩ := h
  let later : List Progress := rest.map fun mark =>
    { phase := mark.1, completed := mark.2.1, total := mark.2.2, path := none }
  have hlater : later.map Progress.mark = rest := by
    rw [List.map_map]
    exact List.map_id rest
  have hmarks : (handed ++ later).map Progress.mark = script n := by
    rw [List.map_append, hlater, hrest]
  have hread : List.Forall₂ Says ((handed ++ later).map Progress.value)
      ((handed ++ later).map fun p => markReport p.mark) := by
    apply List.forall₂_map_left_iff.mpr
    apply List.forall₂_map_right_iff.mpr
    apply List.forall₂_same.mpr
    intro p hp
    apply says_progress
    have hle := script_completed p.mark (hmarks ▸ List.mem_map_of_mem hp)
    have hcount : p.completed ≤ n := hle
    omega
  have hreports : ((handed ++ later).map fun p => markReport p.mark) =
      (script n).map markReport := by
    rw [← hmarks, List.map_map]
    rfl
  have htrack := track_protocol hread (hreports ▸ protocol_script n)
  rw [List.map_append, track, List.foldlM_append] at htrack
  cases hhanded : track n (-1, 0) (handed.map Progress.value) with
  | none =>
    rw [track] at hhanded
    rw [hhanded] at htrack
    cases htrack
  | some place => exact ⟨place, rfl⟩

/-! ## The watchdog and the compilation -/

/-- The last phase is among the reports. -/
def ReportsResult (values : List Json) : Prop :=
  ∃ value ∈ values, field (some value) "phase" = some (.str "RESULT")

theorem reportsResult_iff (h : List.Forall₂ Says values reports) :
    ReportsResult values ↔ "RESULT" ∈ reports.map (·.phase) := by
  unfold ReportsResult
  induction h with
  | nil => simp
  | @cons value r values reports hread _ ih =>
    have hphase : field (some value) "phase" = some (.str "RESULT") ↔ "RESULT" = r.phase := by
      rw [hread.phase, Option.some_inj, Json.str.injEq, eq_comm]
    simp only [List.map_cons, List.mem_cons, exists_eq_or_imp, hphase, ih]

/-- A run whose reports were all taken is on the trail, and complete once the last was there. -/
theorem complete_of_taken {d : Deadline} {events : List Event} (hcount : d.materialCount = n)
    (hphase : d.phase = -1) (hcompleted : d.completed = 0)
    (hrunning : (follow d events).stopped = false) (hall : ∀ b ∈ answers d events, b = true) :
    ∃ reports, List.Forall₂ Says (reported events) reports ∧
      Trail n reports (follow d events).phase (follow d events).completed ∧
      (complete (follow d events) = true ↔ ReportsResult (reported events)) := by
  obtain ⟨htrack, hsame⟩ := follow_track hrunning hall
  rw [hcount, hphase, hcompleted] at htrack
  obtain ⟨reports, hread, htrail⟩ := trail_of_track htrack
  refine ⟨reports, hread, htrail, ?_⟩
  rw [reportsResult_iff hread, ← htrail.complete_iff]
  unfold complete
  rw [hrunning, hsame, hcount]
  simp [parserPhases]

theorem protocol_monotone (h : Protocol n reports) :
    (reports.map (·.completed)).Pairwise (· ≤ ·) := by
  obtain ⟨counts, ⟨hfirst, hlast, habove⟩, rfl⟩ := h
  have hmost := le_last habove hlast
  have hlow : ∀ a ∈ counts, 0 ≤ a := by
    cases counts with
    | nil => cases hfirst
    | cons count rest =>
      cases hfirst
      intro a ha
      rcases List.mem_cons.mp ha with rfl | ha
      · exact le_refl 0
      · exact ((List.pairwise_cons.mp habove).1 a ha).le
  have hn : 0 ≤ n := hlow n (List.mem_of_getLast? hlast)
  have hcompleted : (normalizeReport n :: counts.map (materialReport n) ++
      (parserPhases.drop 2).map (phaseReport n)).map (·.completed) =
        0 :: (counts ++ (parserPhases.drop 2).map fun _ => n) := by
    simp [normalizeReport, materialReport, phaseReport, Function.comp_def]
  rw [hcompleted]
  apply List.pairwise_cons.mpr
  constructor
  · intro a ha
    rcases List.mem_append.mp ha with ha | ha
    · exact hlow a ha
    · obtain ⟨phase, -, rfl⟩ := List.mem_map.mp ha
      exact hn
  · apply List.pairwise_append.mpr
    refine ⟨habove.imp le_of_lt, ?_, ?_⟩
    · exact List.pairwise_map.mpr (List.pairwise_of_forall fun _ _ => le_refl n)
    · intro a ha b hb
      obtain ⟨phase, -, rfl⟩ := List.mem_map.mp hb
      exact hmost a ha

section Watchdog

variable (sha256 : String → String) (input : CompileBudget.Input)
  (extract : CompileBudget.Extractor) (calls : CompileBudget.RelationCalls)

/-- What the compilation hands out. -/
def handedOut : List Progress :=
  (compileSteps sha256 input extract calls initial).1

/-- The compilation with the calls of its relation phases in one sequence. -/
def compiled : Except CompileBudget.Thrown CompileBudget.Result :=
  compile sha256 input extract fun s materials =>
    joined sha256 (budgetOf input) materials
      ((CompileBudget.relationshipPhases calls).map (·.2)) s

theorem handedOut_result :
    ReportsResult ((handedOut sha256 input extract calls).map Progress.value) ↔
      ∃ r, compiled sha256 input extract calls = .ok r := by
  unfold compiled handedOut
  rw [← CompileBudget.result_compileSteps, ← CompileBudget.result_handed_iff]
  unfold ReportsResult
  constructor
  · rintro ⟨value, hvalue, hphase⟩
    obtain ⟨p, hp, rfl⟩ := List.mem_map.mp hvalue
    have hlast : some (Json.str p.phase) = some (.str "RESULT") := hphase
    rw [Option.some_inj, Json.str.injEq] at hlast
    rw [← hlast]
    exact List.mem_map_of_mem hp
  · intro hlast
    obtain ⟨p, hp, hphase⟩ := List.mem_map.mp hlast
    refine ⟨p.value, List.mem_map_of_mem hp, ?_⟩
    show some (Json.str p.phase) = _
    rw [hphase]

/-- The first report is handed out before anything can go wrong. -/
theorem normalize_handedOut : CompileBudget.progress input.materials.length "NORMALIZE" 0 none ∈
    handedOut sha256 input extract calls := by
  have hfirst : CompileBudget.progress input.materials.length "NORMALIZE" 0 none ∈
      (bodySteps sha256 input extract calls initial).1 := by
    unfold bodySteps
    rw [Yielding.values_of_ok (t := initial) (a := ()) rfl]
    exact List.mem_append_left _ (List.mem_singleton_self _)
  unfold handedOut compileSteps
  rcases h : (bodySteps sha256 input extract calls initial).2
    with ⟨e | done, t⟩
  · rw [Yielding.values_of_error h]
    exact hfirst
  · rw [Yielding.values_of_ok h]
    exact List.mem_append_left _ hfirst

end Watchdog

section Few

def noMaterials : CompileBudget.Input :=
  { workspaceId := "w", bundleId := "", bounded := false, maxRecords := 0, materials := [] }

def noRelations : CompileBudget.RelationCalls :=
  { documentLinks := fun _ _ => [], javaScriptModules := fun _ _ => []
    javaBindings := fun _ _ => [], testReferences := fun _ _ => []
    endpointContracts := fun _ _ => [] }

def unavailable : CompileBudget.MaterialInput :=
  { componentId := "", pathBytes := "", rawPath := [], displayPath := none, bytesDigest := ""
    isUtf8 := true, privateKey := false, contentAvailable := false, contentDigest := none
    unavailableCode := none, kind := .UNSUPPORTED, ruleRef := none }

def manyMaterials : CompileBudget.Input :=
  { noMaterials with materials := List.replicate 200001 unavailable }

end Few

end Traqen.ParserProtocol
