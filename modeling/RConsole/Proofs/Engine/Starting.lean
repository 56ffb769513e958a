import RConsole.Proofs.Engine.Once
import RConsole.Proofs.Store.Files
import RConsole.Proofs.Text.Utf8

/-!
Starts that follow each other in one process. One that fails before it calls R leaves the call to
later ones, but what it exported stays, and a later start that is given no root finds the root of the
failed one there.
-/
namespace RConsole

namespace Environment

variable {e e' : Environment} {name other : String}

theorem get?_set_self (e : Environment) (name value : String) :
    (e.set name value).get? name = some value := by
  simp [get?, set]

theorem get?_set_of_ne (value : String) (h : name ≠ other) :
    (e.set other value).get? name = e.get? name := by
  unfold get? set
  rw [Files.find?_replaced_of_ne h]

theorem get?_setAll_congr (h : e.get? name = e'.get? name) (values : Environment) :
    (e.setAll values).get? name = (e'.setAll values).get? name := by
  induction values generalizing e e' with
  | nil => exact h
  | cons v values ih =>
    apply ih
    by_cases hv : name = v.1
    · rw [hv, get?_set_self, get?_set_self]
    · rw [get?_set_of_ne v.2 hv, get?_set_of_ne v.2 hv, h]

end Environment

namespace Installation

variable {files : Files} {platform : Platform} {root : Path} {found : Installation}

theorem ofRoot_root (h : ofRoot files platform root = .ok found) : found.root = root := by
  unfold ofRoot at h
  split at h
  · cases h
  · dsimp only at h
    split at h
    · cases h
      rfl
    · cases h

theorem ofRoot_ne_empty (h : ofRoot files platform root = .ok found) : root ≠ "" := by
  rintro rfl
  have hd : files.isDirectory "" = false := by
    simp [Files.isDirectory, Files.find, Files.place, bind, Except.bind]
  rw [ofRoot, hd] at h
  cases h

theorem ofRoot_again (h : ofRoot files platform root = .ok found) :
    ofRoot files platform found.root = .ok found := by
  rw [ofRoot_root h]
  exact h

theorem locate_ok {run : CommandRun} {explicit : Option Path} {environment : Environment}
    (h : locate files platform run explicit environment = .ok found) :
    ofRoot files platform found.root = .ok found := by
  unfold locate at h
  split at h
  · exact ofRoot_again h
  · exact ofRoot_again h
  · cases hr : rootOf command run with
    | error e =>
      rw [hr] at h
      cases h
    | ok root =>
      rw [hr] at h
      exact ofRoot_again h

theorem get?_environment (root : Path) (e : Environment) :
    (e.setAll (Installation.environment root)).get? "R_HOME" = some root := by
  simp [Installation.environment, Environment.setAll, Environment.get?_set_of_ne,
    Environment.get?_set_self]

end Installation

def Shared.export (s : Shared) (found : Installation) : Shared :=
  { s with environment := s.environment.setAll (Installation.environment found.root) }

/-- Whether a start that ends in this way ended after the export and without a call of R. -/
def RuntimeError.isLate : RuntimeError → Bool
  | .init (.loadFailed _ _) => true
  | .init (.missingSymbol _) => true
  | .init (.invalidArgument _) => true
  | _ => false

def Host.locate (h : Host) (options : StartOptions) (s : Shared) :
    Except DiscoveryError Installation :=
  Installation.locate h.files h.platform h.command options.root s.environment

namespace Attempt

variable {h : Host} {o : StartOptions} {s t : Shared} {a : Attempt}

inductive Came (h : Host) (o : StartOptions) (s : Shared) : Attempt → Shared → Prop
  | fresh : Came h o s (.fresh o) s
  | located {found : Installation} (hl : h.locate o s = .ok found) : Came h o s (.located o found) s
  | admitted {found : Installation} (hl : h.locate o s = .ok found) (hc : s.claimed = false) :
      Came h o s (.admitted o found) s
  | exported {found : Installation} (hl : h.locate o s = .ok found) (hc : s.claimed = false) :
      Came h o s (.exported o found) (s.export found)
  | opened {found : Installation} (library : Library) (hl : h.locate o s = .ok found)
      (hc : s.claimed = false) : Came h o s (.opened o library) (s.export found)
  | resolved {found : Installation} (library : Library) (hl : h.locate o s = .ok found)
      (hc : s.claimed = false) : Came h o s (.resolved o library) (s.export found)
  | worded {found : Installation} (arguments : List String) (library : Library)
      (hl : h.locate o s = .ok found) (hc : s.claimed = false) :
      Came h o s (.worded arguments library) (s.export found)
  | claimed (arguments : List String) (library : Library) (t : Shared) :
      Came h o s (.claimed arguments library) t
  | early {e : RuntimeError} (he : e.isLate = false) : Came h o s (.done (.error e)) s
  | late {found : Installation} {e : RuntimeError} (hl : h.locate o s = .ok found)
      (he : e.isLate = true) : Came h o s (.done (.error e)) (s.export found)
  | called {result : Except RuntimeError Library} (hr : (done result).called = true) (t : Shared) :
      Came h o s (.done result) t

theorem came_step (hc : Came h o s a t) : Came h o s (a.step h t).1 (a.step h t).2 := by
  cases hc with
  | fresh =>
    simp only [step]
    split
    · rename_i e he
      cases Platform.requireLoading_error he
      exact .early rfl
    · cases hl : h.locate o s with
      | error e =>
        rw [Host.locate] at hl
        simp only [hl]
        exact .early rfl
      | ok found =>
        have hf := hl
        rw [Host.locate] at hf
        simp only [hf]
        exact .located hl
  | located hl =>
    simp only [step]
    split
    · exact .early rfl
    · rename_i hc
      exact .admitted hl (eq_false_of_ne_true hc)
  | admitted hl hc => exact .exported hl hc
  | exported hl hc =>
    simp only [step]
    split
    · exact .late hl rfl
    · exact .opened _ hl hc
  | opened library hl hc =>
    simp only [step]
    split
    · rename_i e he
      obtain ⟨name, rfl⟩ := Library.resolve_error he
      exact .late hl rfl
    · exact .resolved library hl hc
  | resolved library hl hc =>
    simp only [step]
    split
    · rename_i e he
      obtain ⟨text, rfl⟩ := checkArguments_error he
      exact .late hl rfl
    · exact .worded _ library hl hc
  | @worded found arguments library hl hc =>
    have hexport : (s.export found).claimed = false := hc
    simp only [step, hexport, Bool.false_eq_true, if_false]
    exact .claimed arguments library _
  | claimed arguments library =>
    simp only [step]
    apply Came.called
    split <;> rfl
  | early he => exact .early he
  | late hl he => exact .late hl he
  | called hr t => exact .called hr t

theorem came_steps (n : Nat) (hc : Came h o s a t) :
    Came h o s (steps h n a t).1 (steps h n a t).2 := by
  induction n generalizing a t with
  | zero => exact hc
  | succ n ih => exact ih (came_step hc)

end Attempt

theorem Host.start_came (h : Host) (o : StartOptions) (s : Shared) :
    Attempt.Came h o s (.done (h.start o s).1) (h.start o s).2 := by
  have hc := Attempt.came_steps 8 (Attempt.Came.fresh (h := h) (o := o) (s := s))
  rwa [h.start_eq o s] at hc

/-- The states agree in all that a start reads; in R_HOME only if `implicit` says that roots are looked
up there. -/
structure Shared.Alike (implicit : Prop) (s t : Shared) : Prop where
  claimed : s.claimed = t.claimed
  root : implicit → s.environment.get? "R_HOME" = t.environment.get? "R_HOME"

namespace Attempt

variable {h : Host} {o : StartOptions} {s t : Shared} {a : Attempt} {implicit : Prop}

def looksUp : Attempt → Bool
  | fresh o => o.root.isNone
  | _ => false

theorem looksUp_step (h : Host) (a : Attempt) (s : Shared) : (a.step h s).1.looksUp = false := by
  have hs := (step_leads h a s).left
  have ha : a.left ≤ 8 := by cases a <;> simp [left]
  cases hr : (a.step h s).1 with
  | fresh o =>
    rw [hr] at hs
    change 8 ≤ _ at hs
    omega
  | _ => rfl

theorem locate_congr (hst : s.Alike implicit t) (hi : o.root.isNone = true → implicit) :
    h.locate o s = h.locate o t := by
  unfold Host.locate Installation.locate
  cases hr : o.root with
  | some root => rfl
  | none => rw [hst.root (hi (by rw [hr]; rfl))]

theorem alike_step (hst : s.Alike implicit t) (hi : a.looksUp = true → implicit) :
    (a.step h s).1 = (a.step h t).1 ∧ (a.step h s).2.Alike implicit (a.step h t).2 := by
  cases a with
  | fresh o =>
    have hl := locate_congr (h := h) hst hi
    unfold Host.locate at hl
    simp only [step, hl]
    split
    · exact ⟨rfl, hst⟩
    · split
      · exact ⟨rfl, hst⟩
      · exact ⟨rfl, hst⟩
  | located o found =>
    simp only [step, hst.claimed]
    split
    · exact ⟨rfl, hst⟩
    · exact ⟨rfl, hst⟩
  | admitted o found =>
    refine ⟨rfl, hst.claimed, fun hi => ?_⟩
    exact Environment.get?_setAll_congr (hst.root hi) _
  | exported o found =>
    simp only [step]
    split
    · exact ⟨rfl, hst⟩
    · exact ⟨rfl, hst⟩
  | opened o library =>
    simp only [step]
    split
    · exact ⟨rfl, hst⟩
    · exact ⟨rfl, hst⟩
  | resolved o library =>
    simp only [step]
    split
    · exact ⟨rfl, hst⟩
    · exact ⟨rfl, hst⟩
  | worded arguments library =>
    simp only [step, hst.claimed]
    split
    · exact ⟨rfl, hst⟩
    · exact ⟨rfl, rfl, hst.root⟩
  | claimed arguments library => exact ⟨rfl, hst.claimed, hst.root⟩
  | done result => exact ⟨rfl, hst⟩

theorem alike_steps (n : Nat) (hst : s.Alike implicit t) (hi : a.looksUp = true → implicit) :
    (steps h n a s).1 = (steps h n a t).1 ∧
      (steps h n a s).2.Alike implicit (steps h n a t).2 := by
  induction n generalizing a s t with
  | zero => exact ⟨rfl, hst⟩
  | succ n ih =>
    obtain ⟨ha, hst'⟩ := alike_step (h := h) hst hi
    simp only [steps, ← ha]
    apply ih hst'
    intro hl
    rw [looksUp_step] at hl
    cases hl

end Attempt

theorem Host.start_alike {h : Host} {o : StartOptions} {s t : Shared} {implicit : Prop}
    (hst : s.Alike implicit t) (hi : o.root.isNone = true → implicit) :
    (h.start o s).1 = (h.start o t).1 ∧ (h.start o s).2.Alike implicit (h.start o t).2 := by
  have hs := Attempt.alike_steps (h := h) (a := .fresh o) 8 hst hi
  rw [h.start_eq o s, h.start_eq o t] at hs
  exact ⟨Attempt.done.inj hs.1, hs.2⟩

structure StartCall where
  options : StartOptions := {}
  files : Files
  command : CommandRun := .notRun .missing
  load : Path → Except String Library

namespace StartCall

def host (platform : Platform) (c : StartCall) : Host := ⟨platform, c.files, c.command, c.load⟩

def locate (platform : Platform) (c : StartCall) : Shared → Except DiscoveryError Installation :=
  (c.host platform).locate c.options

def start (platform : Platform) (c : StartCall) : Shared → Except RuntimeError Library × Shared :=
  (c.host platform).start c.options

def answers (platform : Platform) :
    List StartCall → Shared → List (Except DiscoveryError Installation × Except RuntimeError Library)
  | [], _ => []
  | c :: later, s =>
    (c.locate platform s, (c.start platform s).1) :: answers platform later (c.start platform s).2

variable {platform : Platform} {c : StartCall} {s t : Shared} {e : RuntimeError}

theorem answers_alike (implicit : Prop) (hst : s.Alike implicit t) (later : List StartCall)
    (hi : ∀ d ∈ later, d.options.root.isNone = true → implicit) :
    answers platform later s = answers platform later t := by
  induction later generalizing s t with
  | nil => rfl
  | cons d later ih =>
    have hd := hi d List.mem_cons_self
    have hl : d.locate platform s = d.locate platform t := Attempt.locate_congr hst hd
    obtain ⟨hr, hst'⟩ : (d.start platform s).1 = (d.start platform t).1 ∧
        (d.start platform s).2.Alike implicit (d.start platform t).2 := Host.start_alike hst hd
    rw [answers, answers, hl, hr, ih hst' fun d' hd' => hi d' (List.mem_cons_of_mem d hd')]

theorem answers_explicit (hc : s.claimed = t.claimed) (later : List StartCall)
    (hlater : ∀ d ∈ later, d.options.root.isSome = true) :
    answers platform later s = answers platform later t := by
  apply answers_alike False ⟨hc, False.elim⟩
  intro d hd hnone
  rw [← Option.not_isSome, hlater d hd] at hnone
  cases hnone

theorem answers_of_root (hc : s.claimed = t.claimed)
    (hroot : s.environment.get? "R_HOME" = t.environment.get? "R_HOME") (later : List StartCall) :
    answers platform later s = answers platform later t := by
  apply answers_alike True ⟨hc, fun _ => hroot⟩
  intro d _ _
  trivial

theorem locate_implicit {root : Path} (hroot : root ≠ "")
    (hs : s.environment.get? "R_HOME" = some root) (hc : c.options.root = none) :
    c.locate platform s = Installation.ofRoot c.files platform root := by
  have hset : (some root).filter (· ≠ "") = some root := by simp [hroot]
  unfold locate Host.locate Installation.locate
  rw [hs, hc, hset]
  rfl

theorem locate_asking_none {found : Installation} {files : Files} {load : Path → Except String Library}
    (hf : Installation.ofRoot files platform found.root = .ok found) :
    StartCall.locate platform { files := files, load := load } s = .ok found ↔
      s.environment.get? "R_HOME" = some found.root := by
  have hne := Installation.ofRoot_ne_empty hf
  constructor
  · intro hl
    unfold locate Host.locate Installation.locate at hl
    split at hl
    · rename_i h
      cases h
    · rename_i root h
      rw [Installation.ofRoot_root hl]
      exact (Option.filter_eq_some_iff.mp h).1
    · cases hl
  · intro hs
    rw [locate_implicit hne hs rfl]
    exact hf

/-- What a start leaves that fails before it calls R. If it fails after the export, its root is the one
that later starts find in R_HOME, until another is exported. Starts that are given roots of their own go
on as if the failed one had not been made, and all starts do exactly if R_HOME is what it was. -/
theorem failed_start_trace (he : (c.start platform s).1 = .error e)
    (hr : ∀ code, e ≠ .init (.initFailed code)) :
    let t := (c.start platform s).2
    (if e.isLate then
      ∃ found, c.locate platform s = .ok found ∧ t = s.export found ∧
        ∀ d : StartCall, d.options.root = none →
          d.locate platform t = Installation.ofRoot d.files platform found.root
    else t = s) ∧
    (∀ later, (∀ d ∈ later, d.options.root.isSome = true) →
      answers platform later t = answers platform later s) ∧
    ((∀ later, answers platform later t = answers platform later s) ↔
      t.environment.get? "R_HOME" = s.environment.get? "R_HOME") := by
  intro t
  have hcame : Attempt.Came (c.host platform) c.options s (.done (.error e)) t :=
    he ▸ (c.host platform).start_came c.options s
  clear_value t
  cases hcame with
  | early hearly =>
    rw [hearly]
    exact ⟨rfl, answers_explicit rfl, iff_of_true (answers_of_root rfl rfl) rfl⟩
  | @late found _ hl hlate =>
    have hfound : Installation.ofRoot c.files platform found.root = .ok found :=
      Installation.locate_ok hl
    have hroot := Installation.get?_environment found.root s.environment
    rw [if_pos hlate]
    refine ⟨⟨found, hl, rfl, ?_⟩, answers_explicit rfl, ?_, answers_of_root rfl⟩
    · intro d hd
      exact locate_implicit (Installation.ofRoot_ne_empty hfound) hroot hd
    · intro hall
      -- Such a start tells the states apart: it has nothing but R_HOME to find the installation by.
      have hone := hall [{ files := c.files, load := c.load }]
      have hlocated := (Prod.mk.inj (List.cons.inj hone).1).1
      rw [(locate_asking_none hfound).mpr hroot] at hlocated
      rw [(locate_asking_none hfound).mp hlocated.symm]
      exact hroot
  | called hcalled =>
    cases e with
    | init e =>
      cases e with
      | initFailed code => exact absurd rfl (hr code)
      | _ => cases hcalled
    | _ => cases hcalled

def twoRoots : Files where
  nodes := ["a", "a/lib", "b", "b/lib"].map (fun p => (Path.segments p.toList, .directory 0o755)) ++
    ["a/lib/libR.so", "b/lib/libR.so"].map fun p => (Path.segments p.toList, .file 0o644 [])

def amongTwo (root : Option Path) : StartCall where
  options := { root := root }
  files := twoRoots
  command := .exited (Utf8.encode "b\n".toList) 0
  load := Library.openAt [(Path.segments "b/lib/libR.so".toList, { path := "b/lib/libR.so" })] twoRoots

def notLoaded : RuntimeError :=
  .init (.loadFailed "a/lib/libR.so" "a/lib/libR.so: not a shared library")

theorem failed_start_trace_load :
    ((amongTwo (some "a")).start .linux {}).1 = .error notLoaded ∧
    ¬ ∀ later, answers .linux later ((amongTwo (some "a")).start .linux {}).2 =
      answers .linux later {} := by
  have he : ((amongTwo (some "a")).start .linux {}).1 = .error notLoaded := by rfl
  have hroot : ((amongTwo (some "a")).start .linux {}).2.environment.get? "R_HOME" = some "a" := by
    rfl
  refine ⟨he, ?_⟩
  rw [(failed_start_trace he nofun).2.2, hroot]
  nofun

/-- A start that is given a bad root fails, and then one that is given none fails as well, which would
have started R from the root that `R` prints or, below, from the one in R_HOME. -/
theorem failed_start_traced :
    (((amongTwo (some "a")).start .linux {}).1 = .error notLoaded ∧
      answers .linux [amongTwo none] {} =
        [(.ok ⟨"b", "b/lib/libR.so"⟩, .ok { path := "b/lib/libR.so" })] ∧
      answers .linux [amongTwo none] ((amongTwo (some "a")).start .linux {}).2 =
        [(.ok ⟨"a", "a/lib/libR.so"⟩, .error notLoaded)]) ∧
    let named : Shared := { environment := [("R_HOME", "b")] }
    ((amongTwo (some "a")).start .linux named).1 = .error notLoaded ∧
    answers .linux [amongTwo none] named =
      [(.ok ⟨"b", "b/lib/libR.so"⟩, .ok { path := "b/lib/libR.so" })] ∧
    answers .linux [amongTwo none] ((amongTwo (some "a")).start .linux named).2 =
      [(.ok ⟨"a", "a/lib/libR.so"⟩, .error notLoaded)] := by
  have hasked : (amongTwo none).locate .linux {} = .ok ⟨"b", "b/lib/libR.so"⟩ := by
    have hr : Installation.rootOf Installation.command (amongTwo none).command = .ok "b" := by
      rw [amongTwo, Installation.rootOf, Utf8.decodeLossy_encode]
      rfl
    change (Installation.rootOf Installation.command (amongTwo none).command >>=
      Installation.ofRoot twoRoots .linux) = _
    rw [hr]
    rfl
  have hstarted : ((amongTwo none).start .linux {}).1 = .ok { path := "b/lib/libR.so" } :=
    (@Process.start_able ((amongTwo none).host .linux) (amongTwo none).options _
      { path := "b/lib/libR.so" } {} rfl rfl hasked (by rfl) (by rfl) (by rfl)).1
  refine ⟨⟨by rfl, ?_, by rfl⟩, by rfl, by rfl, by rfl⟩
  rw [answers, hasked, hstarted]
  rfl

end StartCall

end RConsole
