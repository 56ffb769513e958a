import RConsole.Proofs.Console.EventStep

namespace RConsole

def Act.mark? : Act → Option Mark
  | wrote chunk => some (.output chunk)
  | interleaved chunk _ => some (.output chunk)
  | keyed k => some (.key k)
  | _ => none

theorem Act.marks_map {shown : Chunk → Act} (h : ∀ chunk, (shown chunk).mark? = some (.output chunk))
    (chunks : List Chunk) : (chunks.map shown).filterMap mark? = chunks.map .output := by
  induction chunks with
  | nil => rfl
  | cons chunk chunks ih => rw [List.map_cons, List.filterMap_cons_some (h chunk), ih, List.map_cons]

def Act.isPicture : Act → Bool
  | rendered _ => true
  | finished _ => true
  | _ => false

namespace Console

variable {c c' c'' : Console}

/-- From the first console to the second, what was queued and what is due with `marks` came out up to
what is still queued, and input was only asked for when the queue was empty. -/
def Delivers (marks : List Mark) (c c' : Console) : Prop :=
  ∃ new, c'.acts = c.acts ++ new ∧ (∀ waiting, .asked waiting ∈ new → waiting = []) ∧
    c.queue.map .output ++ marks = new.filterMap Act.mark? ++ c'.queue.map .output

namespace Delivers

theorem refl (c : Console) : Delivers [] c c := ⟨[], by simp, by simp, by simp⟩

theorem trans {marks marks' : List Mark} (h : Delivers marks c c') (h' : Delivers marks' c' c'') :
    Delivers (marks ++ marks') c c'' := by
  obtain ⟨new, he, ha, hm⟩ := h
  obtain ⟨new', he', ha', hm'⟩ := h'
  refine ⟨new ++ new', by rw [he', he, List.append_assoc], ?_, ?_⟩
  · intro waiting hw
    exact (List.mem_append.mp hw).elim (ha waiting) (ha' waiting)
  · rw [← List.append_assoc, hm, List.append_assoc, hm', List.filterMap_append, List.append_assoc]

theorem of_acts {chunks : List Chunk} (ha : c'.acts = c.acts) (hq : c'.queue = c.queue ++ chunks) :
    Delivers (chunks.map .output) c c' :=
  ⟨[], by simp [ha], by simp, by simp [hq]⟩

theorem same (ha : c'.acts = c.acts) (hq : c'.queue = c.queue) : Delivers [] c c' :=
  ⟨[], by simp [ha], by simp, by simp [hq]⟩

theorem silent {a : Act} (ha : c'.acts = c.acts ++ [a]) (hq : c'.queue = c.queue)
    (hm : a.mark? = none) (hw : ∀ waiting, a = .asked waiting → waiting = []) : Delivers [] c c' := by
  refine ⟨[a], ha, ?_, by simp [hm, hq]⟩
  intro waiting hi
  exact hw waiting (List.mem_singleton.mp hi).symm

theorem shown {a : Act} {mark : Mark} (ha : c'.acts = c.acts ++ [a]) (hc : c.queue = [])
    (hq : c'.queue = []) (hm : a.mark? = some mark) : Delivers [mark] c c' := by
  refine ⟨[a], ha, ?_, by simp [hm, hc, hq]⟩
  intro waiting hi
  rw [← List.mem_singleton.mp hi] at hm
  cases hm

end Delivers

def pictures (c : Console) : List Act := c.acts.filter Act.isPicture

theorem pictures_of_acts (h : c'.acts = c.acts) : c'.pictures = c.pictures := by
  unfold pictures
  rw [h]

end Console

def Terminal.showAll (method : Method) (shown : Chunk → Act) (chunks : List Chunk) (t : Terminal) :
    Terminal :=
  chunks.foldl (fun t chunk => (t.count method).perform (shown chunk)) t

theorem Terminal.acts_showAll (method : Method) (shown : Chunk → Act) (chunks : List Chunk)
    (t : Terminal) : (t.showAll method shown chunks).acts.toList = t.acts.toList ++ chunks.map shown := by
  unfold showAll
  induction chunks generalizing t with
  | nil => simp
  | cons chunk chunks ih =>
    rw [List.foldl_cons, ih]
    simp [Terminal.perform, Terminal.count]

theorem Terminal.faults_showAll (method : Method) (shown : Chunk → Act) (chunks : List Chunk)
    (t : Terminal) : (t.showAll method shown chunks).faults = t.faults := by
  unfold showAll
  induction chunks generalizing t with
  | nil => rfl
  | cons chunk chunks ih =>
    rw [List.foldl_cons, ih]
    rfl

namespace Console

variable {c : Console}

def flushed (frame : Frame) (c : Console) : Console :=
  did .ready .checked (perform (.asked []) { c with
    queue := []
    terminal := c.terminal.showAll .interleave (.interleaved · frame) c.queue })

theorem interleave_quiet (h : c.terminal.Quiet) (frame : Frame) (chunks : List Chunk) :
    interleave frame chunks c =
      (.ok (), { c with terminal := c.terminal.showAll .interleave (.interleaved · frame) chunks }) := by
  induction chunks generalizing c with
  | nil => rfl
  | cons chunk chunks ih =>
    have hi := ih (c := c.did .interleave (.interleaved chunk frame)) h
    unfold interleave
    rw [act_quiet h]
    exact hi

theorem check_quiet {s : Keyed} (h : s.1.terminal.Quiet) (frame : Frame) :
    check frame s =
      (if (Input.poll s.2).1 then .ready else .notReady, s.1.flushed frame, (Input.poll s.2).2) := by
  have hq : (perform (.asked []) { s.1 with
      queue := []
      terminal := s.1.terminal.showAll .interleave (.interleaved · frame) s.1.queue }).terminal.Quiet := by
    intro f hf
    apply h f
    simpa [perform, Terminal.perform, Terminal.faults_showAll] using hf
  have hi : interleave frame s.1.queue { s.1 with queue := [] } = _ :=
    interleave_quiet (c := { s.1 with queue := [] }) h frame s.1.queue
  simp only [check, hi, act_quiet hq]
  rfl

theorem acts_flushed (frame : Frame) (c : Console) :
    (c.flushed frame).acts = c.acts ++ (c.queue.map (.interleaved · frame) ++ [.asked [], .checked]) := by
  rw [flushed, acts_did, acts_perform]
  simp only [acts, Terminal.acts_showAll, List.append_assoc]
  rfl

theorem flushed_delivers (frame : Frame) (c : Console) : Delivers [] c (c.flushed frame) := by
  refine ⟨_, acts_flushed frame c, ?_, ?_⟩
  · intro waiting hw
    simpa using hw
  · rw [List.filterMap_append, Act.marks_map fun _ => rfl]
    simp [flushed, did, perform, Act.mark?]

theorem flushed_pictures (frame : Frame) (c : Console) : (c.flushed frame).pictures = c.pictures := by
  simp [pictures, acts_flushed, Act.isPicture]

theorem flushed_backdrop (frame : Frame) (c : Console) : (c.flushed frame).backdrop = c.backdrop := by
  have hf : (c.flushed frame).terminal.faults = c.terminal.faults :=
    Terminal.faults_showAll .interleave (.interleaved · frame) c.queue c.terminal
  unfold backdrop
  rw [hf]
  rfl

theorem drain_quiet (h : c.terminal.Quiet) :
    c.drain = { c with queue := [], terminal := c.terminal.showAll .write .wrote c.queue } := by
  have hp (chunks : List Chunk) (c : Console) (h : c.terminal.Quiet) :
      chunks.foldl (fun c chunk => c.print chunk) c =
        { c with terminal := c.terminal.showAll .write .wrote chunks } := by
    induction chunks generalizing c with
    | nil => rfl
    | cons chunk chunks ih =>
      have hi := ih (c.did .write (.wrote chunk)) h
      rw [List.foldl_cons, print_quiet h]
      exact hi
  exact hp c.queue { c with queue := [] } h

theorem drain_delivers (h : c.terminal.Quiet) : Delivers [] c c.drain := by
  have ha : c.drain.acts = c.acts ++ c.queue.map .wrote := by
    rw [drain_quiet h]
    exact Terminal.acts_showAll ..
  refine ⟨_, ha, ?_, ?_⟩
  · intro waiting hw
    simp at hw
  · rw [Act.marks_map fun _ => rfl, drain_quiet h]
    rfl

end Console

end RConsole
