import RConsole.Proofs.Console.Prompting

namespace RConsole.Console

variable {c c' : Console} {reading : Bool}

theorem Bound.asked (h : Bound reading c) (hs : c'.engine.hooks = c.engine.hooks)
    (hc : c' = { c with settings := c'.settings, loadBanner := c'.loadBanner, engine := c'.engine })
    (hl : c'.loadBanner = none ∨ c'.loadBanner = c.loadBanner) : Bound reading c' := by
  rw [hc]
  refine { h with hooks := ?_, banner := ?_ }
  · change c'.engine.hooks.read = _ ∧ c'.engine.hooks.writeEx = _ ∧ c'.engine.hooks.message = _
    rw [hs]
    exact h.hooks
  · intro load hb
    obtain hn | hk := hl
    · rw [hn] at hb
      cases hb
    · rw [hk] at hb
      exact h.banner load hb

theorem ensureSettings_rest (h : Bound reading c) :
    c.engine.Asked c.ensureSettings.2.engine ∧ c.ensureSettings.2 =
      { c with settings := some c.ensureSettings.1, engine := c.ensureSettings.2.engine } := by
  unfold ensureSettings
  split
  · rename_i settings hl
    exact ⟨.refl _, by rw [← hl]⟩
  · exact ⟨h.settings.asked c.engine, rfl⟩

theorem Bound.ensureSettings (h : Bound reading c) : Bound reading c.ensureSettings.2 := by
  obtain ⟨ha, hc⟩ := ensureSettings_rest h
  apply h.asked ha.hooks
  · rw [hc]
  · rw [hc]
    exact .inr rfl

theorem Bound.begun (h : Bound reading c) (hint : String) : Bound reading (c.begun hint) :=
  { h.ensureSettings with }

def loaded (c : Console) : Console :=
  match c.loadBanner with
  | none => c.ensureSettings.2
  | some load => { c.ensureSettings.2 with
      loadBanner := none, engine := (load c.ensureSettings.2.engine).2 }

theorem loaded_rest (h : Bound reading c) :
    c.engine.Asked c.loaded.engine ∧ c.loaded =
      { c with settings := some c.ensureSettings.1, loadBanner := none, engine := c.loaded.engine } := by
  obtain ⟨ha, hc⟩ := ensureSettings_rest h
  unfold loaded
  split
  · rename_i hl
    refine ⟨ha, ?_⟩
    rw [← hl]
    exact hc
  · rename_i load hl
    refine ⟨ha.trans ((h.banner load hl).asked _), ?_⟩
    dsimp only
    rw [hc]

theorem Bound.loaded (h : Bound reading c) : Bound reading c.loaded := by
  obtain ⟨ha, hc⟩ := loaded_rest h
  apply h.asked ha.hooks
  · rw [hc]
  · rw [hc]
    exact .inl rfl

structure Prints (chunks : List Chunk) (c c' : Console) : Prop where
  rest : c' = { c with terminal := c'.terminal }
  faults : c'.terminal.faults = c.terminal.faults
  acts : c'.acts = c.acts ++ chunks.map .wrote

namespace Prints

variable {chunks chunks' : List Chunk} {c'' : Console}

theorem refl (c : Console) : Prints [] c c := ⟨rfl, rfl, by simp⟩

theorem trans (h : Prints chunks c c') (h' : Prints chunks' c' c'') :
    Prints (chunks ++ chunks') c c'' where
  rest := by rw [h'.rest, h.rest]
  faults := h'.faults.trans h.faults
  acts := by rw [h'.acts, h.acts, List.append_assoc, List.map_append]

theorem backdrop (h : Prints chunks c c') : c'.backdrop = c.backdrop := by
  unfold Console.backdrop
  rw [h.faults, h.rest]

theorem bound (h : Prints chunks c c') (hb : Bound reading c) : Bound reading c' :=
  hb.of_backdrop h.backdrop

theorem delivers (h : Prints chunks c c') (hq : c.queue = []) : Delivers (chunks.map .output) c c' := by
  refine ⟨_, h.acts, by simp, ?_⟩
  rw [Act.marks_map fun _ => rfl, h.rest]
  simp [hq]

theorem pictures (h : Prints chunks c c') : c'.pictures = c.pictures := by
  have hf : (chunks.map Act.wrote).filter Act.isPicture = [] := by simp [Act.isPicture]
  unfold Console.pictures
  rw [h.acts, List.filter_append, hf, List.append_nil]

end Prints

theorem print_prints (h : c.terminal.Quiet) (chunk : Chunk) : Prints [chunk] c (c.print chunk) := by
  rw [print_quiet h]
  exact ⟨rfl, rfl, acts_did ..⟩

theorem tell_quiet (h : c.terminal.Quiet) (text : String) :
    c.tell print text =
      if endsLine text then c.did .write (.wrote ⟨text, .out⟩)
      else (c.did .write (.wrote ⟨text, .out⟩)).did .write (.wrote ⟨"\n", .out⟩) := by
  have hq : (c.did .write (.wrote ⟨text, .out⟩)).terminal.Quiet := h
  simp only [tell, print_quiet h, print_quiet hq]

theorem tell_prints (h : c.terminal.Quiet) (text : String) :
    Prints (told text) c (c.tell print text) := by
  rw [tell_quiet h]
  unfold told
  split
  · exact ⟨rfl, rfl, acts_did ..⟩
  · exact ⟨rfl, rfl, by simp [acts_did]⟩

def bannerText? (c : Console) : Option String :=
  c.loadBanner.bind fun load => (load c.ensureSettings.2.engine).1

def greeting (c : Console) : List Chunk :=
  c.bannerText?.elim [] told ++ if c.blankLine then [⟨"\n", .out⟩] else []

theorem banner_prints (h : Bound reading c) :
    Prints (c.bannerText?.elim [] told) c.loaded c.ensureSettings.2.banner := by
  have hb : c.ensureSettings.2.loadBanner = c.loadBanner := by rw [(ensureSettings_rest h).2]
  unfold bannerText? loaded banner
  rw [hb]
  cases hl : c.loadBanner with
  | none => exact .refl _
  | some load =>
    simp only [Option.bind_some]
    cases ht : (load c.ensureSettings.2.engine).1 with
    | none => exact .refl _
    | some text =>
      exact tell_prints (c := { c.ensureSettings.2 with
        loadBanner := none, engine := (load c.ensureSettings.2.engine).2 }) h.ensureSettings.quiet text

theorem lead_prints (h : Bound reading c) : Prints c.greeting c.loaded c.lead := by
  have hp := banner_prints h
  have hb : c.ensureSettings.2.banner.blankLine = c.blankLine := by
    rw [hp.rest, (loaded_rest h).2]
  unfold lead greeting
  dsimp only
  rw [hb]
  split
  · exact hp.trans (print_prints (hp.bound h.loaded).quiet _)
  · rw [List.append_nil]
    exact hp

theorem Bound.lead (h : Bound reading c) : Bound reading c.lead := (lead_prints h).bound h.loaded

theorem lead_asked (h : Bound reading c) : c.engine.Asked c.lead.engine := by
  rw [(lead_prints h).rest]
  exact (loaded_rest h).1

theorem lead_delivers (h : Bound reading c) (hq : c.queue = []) :
    Delivers (c.greeting.map .output) c c.lead := by
  have hl : Delivers [] c c.loaded := by
    rw [(loaded_rest h).2]
    exact .same rfl rfl
  apply hl.trans
  apply (lead_prints h).delivers
  rw [(loaded_rest h).2]
  exact hq

end RConsole.Console
