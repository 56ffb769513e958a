import RConsole.Engine.Action

namespace RConsole

namespace Running

theorem set_set (r : Running) (slot : Slot) (a b : Bool) : (r.set slot a).set slot b = r.set slot b := by
  cases slot <;> rfl

theorem set_has {r : Running} {slot : Slot} {b : Bool} (h : r.has slot = b) : r.set slot b = r := by
  subst h
  cases slot <;> rfl

theorem has_set (r : Running) (slot other : Slot) (b : Bool) :
    (r.set slot b).has other = if other = slot then b else r.has other := by
  cases slot <;> cases other <;> rfl

end Running

namespace Desk

variable {σ α β : Type} [HasDesk σ] {π : σ → β} {r : σ → σ → Prop}

theorem serve_rel (trans : ∀ {s t u}, r s t → r t u → r s u)
    (desk : ∀ d s, r s (HasDesk.withDesk d s)) {busy closure : σ → α × σ} (hb : ∀ s, r s (busy s).2)
    (hc : ∀ s, r s (closure s).2) (slot : Slot) (s : σ) : r s (serve slot busy closure s).2 := by
  unfold serve
  split
  · exact hb s
  · exact trans (desk _ _) (trans (hc _) (desk _ _))

theorem write_rel (refl : ∀ s, r s s) (trans : ∀ {s t u}, r s t → r t u → r s u)
    (desk : ∀ d s, r s (HasDesk.withDesk d s)) {print : Chunk → σ → Ended Unit × σ}
    (hp : ∀ chunk s, r s (print chunk s).2) (bytes : Utf8.Bytes) (code : Int) (s : σ) :
    r s (write print bytes code s) := by
  unfold write
  split
  · exact refl s
  · apply serve_rel (r := r) trans desk
    · intro s; exact desk _ s
    · intro s; exact hp _ s

theorem message_rel (refl : ∀ s, r s s) (trans : ∀ {s t u}, r s t → r t u → r s u)
    (desk : ∀ d s, r s (HasDesk.withDesk d s)) {tell : String → σ → Ended Unit × σ}
    (hp : ∀ text s, r s (tell text s).2) (bytes : Utf8.Bytes) (s : σ) :
    r s (message tell bytes s) := by
  unfold message
  split
  · exact refl s
  · apply serve_rel (r := r) trans desk
    · intro s; exact desk _ s
    · intro s; exact hp _ s

theorem serve_keeps (desk : ∀ d s, π (HasDesk.withDesk d s) = π s) {busy closure : σ → α × σ}
    (hb : ∀ s, π (busy s).2 = π s) (hc : ∀ s, π (closure s).2 = π s) (slot : Slot) (s : σ) :
    π (serve slot busy closure s).2 = π s :=
  serve_rel (r := fun s t => π t = π s) (fun h h' => h'.trans h) desk hb hc slot s

theorem read_keeps (desk : ∀ d s, π (HasDesk.withDesk d s) = π s)
    {produce : String → σ → Ended (Option String) × σ} (hp : ∀ hint s, π (produce hint s).2 = π s)
    (hint : Utf8.Bytes) (size : Int) (s : σ) : π (read produce hint size s).2 = π s := by
  unfold read
  split
  · rfl
  · refine serve_keeps desk (fun _ => rfl) (fun s => ?_) _ s
    split <;> (rename_i h; rw [← hp (cString hint) s, h])

theorem write_keeps (desk : ∀ d s, π (HasDesk.withDesk d s) = π s)
    {print : Chunk → σ → Ended Unit × σ} (hp : ∀ chunk s, π (print chunk s).2 = π s)
    (bytes : Utf8.Bytes) (code : Int) (s : σ) : π (write print bytes code s) = π s :=
  write_rel (r := fun s t => π t = π s) (fun _ => rfl) (fun h h' => h'.trans h) desk hp bytes code s

theorem message_keeps (desk : ∀ d s, π (HasDesk.withDesk d s) = π s)
    {tell : String → σ → Ended Unit × σ} (hp : ∀ text s, π (tell text s).2 = π s)
    (bytes : Utf8.Bytes) (s : σ) : π (message tell bytes s) = π s :=
  message_rel (r := fun s t => π t = π s) (fun _ => rfl) (fun h h' => h'.trans h) desk hp bytes s

theorem cleanUp_keeps (desk : ∀ d s, π (HasDesk.withDesk d s) = π s)
    {handle : Ending → σ → Ended Unit × σ} {chain : Hook → Ending → σ → σ}
    (hh : ∀ e s, π (handle e s).2 = π s) (hc : ∀ hook e s, π (chain hook e s) = π s)
    (e : Ending) (s : σ) : π (cleanUp handle chain e s) = π s := by
  have hs : π (serve .cleanUp (fun s => (Ended.returned (), s)) (handle e) s).2 = π s :=
    serve_keeps desk (fun _ => rfl) (hh e) _ s
  unfold cleanUp
  split
  · rfl
  · split
    · rename_i h
      rw [h] at hs
      split
      · exact (hc _ _ _).trans hs
      · exact hs
    · rename_i h
      rw [h] at hs
      exact hs

end Desk

structure Callbacks.Keeps {σ β : Type} (cb : Callbacks σ) (π : σ → β) : Prop where
  read : ∀ hint size s, π (cb.read hint size s).2 = π s
  write : ∀ bytes code s, π (cb.write bytes code s) = π s
  message : ∀ bytes s, π (cb.message bytes s) = π s
  cleanUp : ∀ e s, π (cb.cleanUp e s) = π s
  request : ∀ mode s, π (cb.request mode s) = π s
  enqueue : ∀ chunk s, π (cb.enqueue chunk s) = π s
  note : ∀ n s, π (cb.note n s) = π s

namespace Action

variable {σ β : Type} {cb : Callbacks σ} {π : σ → β}

theorem through_keeps (h : cb.Keeps π) (name : String) (hook : Hooks → Option Hook) {call : σ → σ}
    (hc : ∀ s, π (call s) = π s) (s : σ) : π (through cb name hook call s) = π s := by
  unfold through
  split
  · exact hc s
  · exact h.note _ s

theorem run_keeps (h : cb.Keeps π) (a : Action) (s : σ) : π (a.run cb s).2 = π s := by
  cases a with
  | write bytes code => exact through_keeps h _ _ (h.write bytes code) s
  | message bytes => exact through_keeps h _ _ (h.message bytes) s
  | read hint size =>
    exact through_keeps h "read" Hooks.read
      (fun s => (h.note _ _).trans (h.read hint size s)) s
  | cleanUp e => exact through_keeps h _ _ (h.cleanUp e) s
  | request mode => exact h.request mode s
  | enqueue chunk => exact h.enqueue chunk s
  | fail => rfl

theorem runAll_keeps (h : cb.Keeps π) (as : List Action) (s : σ) :
    π (runAll cb as s).2 = π s := by
  induction as generalizing s with
  | nil => rfl
  | cons a as ih =>
    have ha := run_keeps h a s
    unfold runAll
    split
    · rename_i hr; rw [ih, ← ha, hr]
    · rename_i hr; rw [← ha, hr]

end Action

end RConsole
