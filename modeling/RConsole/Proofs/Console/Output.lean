import RConsole.Proofs.Console.Turns

namespace RConsole

def Mark.chunk? : Mark → Option Chunk
  | output chunk => some chunk
  | key _ => none

theorem chunks_of_marks (acts : List Act) :
    acts.filterMap Act.chunk? = (acts.filterMap Act.mark?).filterMap Mark.chunk? := by
  rw [List.filterMap_filterMap]
  congr 1
  funext a
  cases a <;> rfl

def Input.used (steps rest : List Input) : List Answer :=
  (answers steps).take ((answers steps).length - (answers rest).length)

theorem Input.used_eq {steps rest : List Input} {read : List Answer}
    (h : answers steps = read ++ answers rest) : used steps rest = read := by
  have hl : (answers steps).length - (answers rest).length = read.length := by
    rw [h, List.length_append]
    omega
  unfold used
  rw [hl, h, List.take_left]

namespace Turn

/-- What is due in a turn: what it prints and, while a read has its prompts, the keys and what R
prints in its event steps. -/
def issued : Turn → Keyed → List Mark
  | read hint size, s =>
    if size ≤ 0 then []
    else s.1.greeting.map .output ++
      Answer.marks (Input.used s.2 (Console.read hint size s).2.2) s.1.engine.events
  | write bytes code, _ => (Action.chunks (.write bytes code)).map .output
  | message bytes, _ => (Action.chunks (.message bytes)).map .output
  | request _, _ => []

def issuedAll : List Turn → Keyed → List Mark
  | [], _ => []
  | t :: turns, s => t.issued s ++ issuedAll turns (t.run s).2

end Turn

namespace Console

open Utf8 (Bytes)

variable {s : Keyed}

theorem read_delivers (hint : Bytes) (size : Int) (h : Bound false s.1) (hq : s.1.queue = []) :
    Delivers (Turn.issued (.read hint size) s) s.1 (read hint size s).2.1 ∧
      Bound false (read hint size s).2.1 ∧ (read hint size s).2.1.queue = [] := by
  simp only [Turn.issued, read_idle h]
  split
  · exact ⟨.refl _, h, hq⟩
  · have hb := h.hold true
    have hlead : Delivers (s.1.greeting.map .output) s.1 (s.1.hold true).lead := by
      have hl := lead_delivers hb hq
      rw [greeting_hold] at hl
      exact hl
    have he : (s.1.hold true).lead.engine.events = s.1.engine.events := (lead_asked hb).events
    obtain ⟨used, hs, hline, hqueue⟩ := line_serves (cString hint) (s := ((s.1.hold true).lead, s.2))
      hb.lead
    have hd := hlead.trans hs.delivers
    rw [he] at hd
    have hu := Input.used_eq hs.answers
    simp only [hu]
    rw [← List.append_nil (_ ++ _)]
    exact ⟨hd.trans (.same rfl rfl), hline.hold false, hqueue⟩

theorem turn_delivers (t : Turn) (h : Bound false s.1) (hq : s.1.queue = []) :
    Delivers (t.issued s) s.1 (t.run s).2.1 ∧ Bound false (t.run s).2.1 ∧
      (t.run s).2.1.queue = [] := by
  have hprints {chunks : List Chunk} {c : Console} (hp : Prints chunks s.1 c) :
      Delivers (chunks.map .output) s.1 c ∧ Bound false c ∧ c.queue = [] := by
    refine ⟨hp.delivers hq, hp.bound h, ?_⟩
    rw [hp.rest]
    exact hq
  cases t with
  | read hint size => exact read_delivers hint size h hq
  | write bytes code => exact hprints (write_prints h bytes code)
  | message bytes => exact hprints (message_prints h bytes)
  | request mode => exact ⟨.same rfl rfl, { h with }, hq⟩

theorem turns_deliver (turns : List Turn) (h : Bound false s.1) (hq : s.1.queue = []) :
    Delivers (Turn.issuedAll turns s) s.1 (Turn.runAll turns s).2.1 ∧
      (Turn.runAll turns s).2.1.queue = [] := by
  induction turns generalizing s with
  | nil => exact ⟨.refl s.1, hq⟩
  | cons t turns ih =>
    obtain ⟨hd, hb, hq'⟩ := turn_delivers t h hq
    obtain ⟨hds, hqs⟩ := ih hb hq'
    exact ⟨hd.trans hds, hqs⟩

/-- No output is lost, duplicated or reordered, and none waits while input is asked for or between
the turns. -/
theorem output_in_order (turns : List Turn) (h : Bound false s.1) (hq : s.1.queue = []) :
    ∃ new, (Turn.runAll turns s).2.1.acts = s.1.acts ++ new ∧
      new.filterMap Act.chunk? = (Turn.issuedAll turns s).filterMap Mark.chunk? ∧
      new.filterMap Act.mark? = Turn.issuedAll turns s ∧
      (∀ waiting, .asked waiting ∈ new → waiting = []) ∧ (Turn.runAll turns s).2.1.queue = [] := by
  obtain ⟨⟨new, ha, hw, hm⟩, hqueue⟩ := turns_deliver turns h hq
  have hmarks : new.filterMap Act.mark? = Turn.issuedAll turns s := by
    simpa [hq, hqueue] using hm.symm
  exact ⟨new, ha, by rw [chunks_of_marks, hmarks], hmarks, hw, hqueue⟩

theorem output_in_order_eventfulPrompt :
    Bound false eventfulPrompt.1 ∧ eventfulPrompt.1.queue = [] ∧
      ∃ new, (Turn.runAll [.write [0x61] 0, .read [0x3E, 0x20] 80, .message [0x62]]
          eventfulPrompt).2.1.acts =
          eventfulPrompt.1.acts ++ new ∧
        new.filterMap Act.mark? =
          [.output ⟨"a", .out⟩, .output ⟨"R4", .out⟩, .output ⟨"\n", .out⟩, .output ⟨"\n", .out⟩,
            .output ⟨"h", .err⟩, .key (some ⟨.char 'q', {}⟩), .key none, .key (some ⟨.enter, {}⟩),
            .output ⟨"b", .out⟩, .output ⟨"\n", .out⟩] := by
  obtain ⟨new, ha, -, hm, -⟩ := output_in_order
    [.write [0x61] 0, .read [0x3E, 0x20] 80, .message [0x62]] bound_eventfulPrompt rfl
  refine ⟨bound_eventfulPrompt, rfl, new, ha, hm.trans ?_⟩
  decide +kernel

end Console

end RConsole
