import RConsole.Console.Session
import RConsole.Proofs.Callback.Keeps

/-!
A prompt taken apart into its smallest steps. A relation between states that each of them respects
holds across the whole prompt, whatever fails and whatever R does meanwhile.
-/
namespace RConsole

def Act.frame? : Act → Option Frame
  | rendered f => some f
  | finished f => some f
  | interleaved _ f => some f
  | _ => none

def Act.key? : Act → Option (Option Key)
  | keyed k => some k
  | _ => none

inductive Act.Of (d : Dressing) : Act → Prop where
  | rendered (b : Buffer) : Of d (.rendered (d.frame b))
  | finished (b : Buffer) : Of d (.finished (d.lastFrame b))
  | interleaved (chunk : Chunk) (b : Buffer) : Of d (.interleaved chunk (d.frame b))
  | bare {a : Act} (h : a.frame? = none) : Of d a

theorem Act.Of.dressed {d : Dressing} {a : Act} (h : Of d a) {f : Frame} (hf : a.frame? = some f) :
    f.prompt = d.prompt ∧ f.color = d.color := by
  cases h with
  | rendered b => cases hf; exact ⟨rfl, rfl⟩
  | finished b => cases hf; exact ⟨rfl, rfl⟩
  | interleaved chunk b => cases hf; exact ⟨rfl, rfl⟩
  | bare h => rw [h] at hf; cases hf

def Act.Amid (d : Dressing) (a : Act) : Prop := Of d a ∧ a.key? = none

inductive Act.Waiting (d : Dressing) : Act → Prop where
  | rendered (b : Buffer) : Waiting d (.rendered (d.frame b))
  | interleaved (chunk : Chunk) (b : Buffer) : Waiting d (.interleaved chunk (d.frame b))
  | asked (waiting : List Chunk) : Waiting d (.asked waiting)
  | checked : Waiting d .checked

theorem Act.Waiting.amid {d : Dressing} {a : Act} (h : Waiting d a) : Amid d a := by
  cases h with
  | rendered b => exact ⟨.rendered b, rfl⟩
  | interleaved chunk b => exact ⟨.interleaved chunk b, rfl⟩
  | asked waiting => exact ⟨.bare rfl, rfl⟩
  | checked => exact ⟨.bare rfl, rfl⟩

theorem Pump.waitFrom_rel {σ : Type} (p : Pump σ) {r : σ → σ → Prop}
    (trans : ∀ {s t u}, r s t → r t u → r s u) (check : ∀ s, r s (p.check s).2)
    (step : ∀ s, r s (p.step s).2) (stats : WaitStats) (s : σ) : r s (p.waitFrom stats s).2 := by
  fun_induction waitFrom p stats s with
  | case1 stats s h => exact check s
  | case2 stats s message h => exact check s
  | case3 stats s h ih => exact trans (check s) (trans (step _) ih)

namespace Console

variable {P : Act → Prop} {d : Dressing} {R : Keyed → Keyed → Prop}

/-- Calls on the terminal respect `R` if they come to acts with `P` and do not ask for input. -/
structure RespectedByCalls (P : Act → Prop) (R : Keyed → Keyed → Prop) : Prop where
  refl (s : Keyed) : R s s
  trans {s t u : Keyed} (h : R s t) (h' : R t u) : R s u
  call {m : Method} (hm : m ≠ .ready) (c : Console) (keys : List Input) :
    R (c, keys) ((c.call m).2, keys)
  perform {a : Act} (ha : P a) (c : Console) (keys : List Input) : R (c, keys) (c.perform a, keys)
  unqueue (c : Console) (keys : List Input) : R (c, keys) ({ c with queue := [] }, keys)
  keymap (m : Keymap) (c : Console) (keys : List Input) : R (c, keys) (c.withKeymap m, keys)

structure RespectedByWaits (P : Act → Prop) (R : Keyed → Keyed → Prop) : Prop
    extends RespectedByCalls P R where
  ready (c : Console) (keys : List Input) : R (c, keys) ((c.call .ready).2, keys)
  poll (c : Console) (keys : List Input) : R (c, keys) (c, (Input.poll keys).2)
  step (c : Console) (keys : List Input) : R (c, keys) (c.eventStep.2, keys)

structure RespectedByKeys (P : Act → Prop) (R : Keyed → Keyed → Prop) : Prop
    extends RespectedByWaits P R where
  typed {keys rest : List Input} {k : Option Key} (h : Input.next? keys = some (k, rest))
    (c : Console) : R (c, keys) (c.perform (.keyed k), rest)

structure RespectedByLoading (R : Keyed → Keyed → Prop) : Prop where
  loaded (settings : Option Settings) (load : Option (Engine → Option String × Engine)) (e : Engine)
    (c : Console) (keys : List Input) :
    R (c, keys) ({ c with settings := settings, loadBanner := load, engine := e }, keys)

structure RespectedByLoads (R : Keyed → Keyed → Prop) : Prop extends RespectedByLoading R where
  desk (k : Desk) (c : Console) (keys : List Input) : R (c, keys) ({ c with desk := k }, keys)
  modes (m : ModeMachine) (c : Console) (keys : List Input) :
    R (c, keys) ({ c with modes := m }, keys)

namespace RespectedByCalls

theorem act_of_call (h : RespectedByCalls P R) {method : Method} {a : Act} (ha : P a) {c : Console}
    {keys : List Input} (hc : R (c, keys) ((c.call method).2, keys)) :
    R (c, keys) ((c.act method a).2, keys) := by
  unfold act
  split
  · rename_i he
    rw [he] at hc
    exact h.trans hc (h.perform ha _ keys)
  · rename_i he
    rw [he] at hc
    exact hc

theorem act (h : RespectedByCalls P R) {m : Method} (hm : m ≠ .ready) {a : Act} (ha : P a)
    (c : Console) (keys : List Input) : R (c, keys) ((c.act m a).2, keys) :=
  h.act_of_call ha (h.call hm c keys)

theorem print (h : RespectedByCalls P R) {chunk : Chunk} (hw : P (.wrote chunk)) (c : Console)
    (keys : List Input) : R (c, keys) (c.print chunk, keys) :=
  h.act (by simp) hw c keys

theorem tell (h : RespectedByCalls P R) (hw : ∀ chunk, P (.wrote chunk)) (text : String)
    (c : Console) (keys : List Input) : R (c, keys) (c.tell Console.print text, keys) := by
  have hp := h.print (hw ⟨text, .out⟩) c keys
  unfold Console.tell
  dsimp only
  split
  · exact hp
  · exact h.trans hp (h.print (hw _) _ keys)

theorem drain (h : RespectedByCalls P R) (hw : ∀ chunk, P (.wrote chunk)) (c : Console)
    (keys : List Input) : R (c, keys) (c.drain, keys) := by
  have hp (chunks : List Chunk) (c : Console) :
      R (c, keys) (chunks.foldl (fun c chunk => c.print chunk) c, keys) := by
    induction chunks generalizing c with
    | nil => exact h.refl _
    | cons chunk chunks ih => exact h.trans (h.print (hw chunk) c keys) (ih _)
  exact h.trans (h.unqueue c keys) (hp c.queue _)

theorem ensureSettings (hl : RespectedByLoading R) (h : RespectedByCalls P R) (c : Console)
    (keys : List Input) : R (c, keys) (c.ensureSettings.2, keys) := by
  unfold Console.ensureSettings
  split
  · exact h.refl _
  · exact hl.loaded _ c.loadBanner _ c keys

theorem banner (hl : RespectedByLoading R) (h : RespectedByCalls P R)
    (hw : ∀ chunk, P (.wrote chunk)) (c : Console) (keys : List Input) :
    R (c, keys) (c.banner, keys) := by
  unfold Console.banner
  split
  · exact h.refl _
  · rename_i load _
    have ho := hl.loaded c.settings none (load c.engine).2 c keys
    dsimp only
    split
    · exact h.trans ho (h.tell hw _ _ keys)
    · exact ho

theorem lead (hl : RespectedByLoading R) (h : RespectedByCalls P R)
    (hw : ∀ chunk, P (.wrote chunk)) (c : Console) (keys : List Input) : R (c, keys) (c.lead, keys) := by
  have hb := h.trans (h.ensureSettings hl c keys) (h.banner hl hw _ keys)
  unfold Console.lead
  dsimp only
  split
  · exact h.trans hb (h.print (hw _) _ keys)
  · exact hb

theorem write (hl : RespectedByLoads R) (h : RespectedByCalls P R) (hw : ∀ chunk, P (.wrote chunk))
    (bytes : Utf8.Bytes) (code : Int) (c : Console) (keys : List Input) :
    R (c, keys) (c.writeWith Console.print bytes code, keys) :=
  Desk.write_rel (r := fun c c' => R (c, keys) (c', keys)) (fun _ => h.refl _) h.trans
    (fun k c => hl.desk k c keys) (fun chunk c => h.print (hw chunk) c keys) bytes code c

theorem message (hl : RespectedByLoads R) (h : RespectedByCalls P R)
    (hw : ∀ chunk, P (.wrote chunk)) (bytes : Utf8.Bytes) (c : Console) (keys : List Input) :
    R (c, keys) (c.messageWith Console.print bytes, keys) :=
  Desk.message_rel (r := fun c c' => R (c, keys) (c', keys)) (fun _ => h.refl _) h.trans
    (fun k c => hl.desk k c keys) (fun text c => h.tell hw text c keys) bytes c

theorem interleave (h : RespectedByCalls (Act.Waiting d) R) (b : Buffer) (chunks : List Chunk)
    (c : Console) (keys : List Input) : R (c, keys) ((interleave (d.frame b) chunks c).2, keys) := by
  induction chunks generalizing c with
  | nil => exact h.refl _
  | cons chunk chunks ih =>
    have ha := h.act (m := .interleave) (by simp) (.interleaved chunk b) c keys
    unfold Console.interleave
    split
    · rename_i he; rw [he] at ha; exact h.trans ha (ih _)
    · rename_i he; rw [he] at ha; exact ha

theorem serve (h : RespectedByCalls (Act.Amid d) R) (request : Option Request) (c : Console)
    (keys : List Input) : R (c, keys) ((c.serve request).2, keys) := by
  rcases request with _ | _ | _
  · exact h.refl _
  · exact h.act (by simp) ⟨.bare rfl, rfl⟩ c keys
  · have hs := h.act (m := .suspend) (a := .suspended) (by simp) ⟨.bare rfl, rfl⟩ c keys
    change R _ (c.suspend.2, keys)
    unfold suspend
    split
    · rename_i he; rw [he] at hs; exact h.trans hs (h.act (by simp) ⟨.bare rfl, rfl⟩ _ keys)
    · rename_i he; rw [he] at hs; exact hs

theorem serveWith (h : RespectedByCalls (Act.Amid d) R) (m : Keymap) (request : Option Request)
    (c : Console) (keys : List Input) : R (c, keys) (((c.withKeymap m).serve request).2, keys) :=
  h.trans (h.keymap m c keys) (h.serve request (c.withKeymap m) keys)

theorem conclude (h : RespectedByCalls (Act.Amid d) R) (e : Editor) (outcome : Outcome)
    (c : Console) (keys : List Input) : R (c, keys) ((c.conclude d e outcome).2, keys) := by
  have hf := h.act (m := .finish) (by simp) ⟨.finished e.buffer, rfl⟩ c keys
  unfold Console.conclude
  split
  · split
    · rename_i he; rw [he] at hf; exact hf
    · rename_i he; rw [he] at hf; exact hf
  · exact h.refl _

end RespectedByCalls

namespace RespectedByWaits

theorem check (h : RespectedByWaits (Act.Waiting d) R) (b : Buffer) (s : Keyed) :
    R s (check (d.frame b) s).2 := by
  have hi := h.trans (h.unqueue s.1 s.2) (h.interleave b s.1.queue { s.1 with queue := [] } s.2)
  unfold Console.check
  split
  · rename_i he; rw [he] at hi; exact hi
  · rename_i c he
    rw [he] at hi
    have ha := h.trans (h.perform (.asked c.queue) c s.2)
      (h.act_of_call (a := .checked) .checked (h.ready (c.perform (.asked c.queue)) s.2))
    have hc := h.trans hi ha
    split
    · rename_i he; rw [he] at hc; exact hc
    · rename_i he; rw [he] at hc; exact h.trans hc (h.poll _ s.2)

theorem wait (h : RespectedByWaits (Act.Waiting d) R) (b : Buffer) (s : Keyed) :
    R s ((pump (d.frame b)).wait s).2 :=
  Pump.waitFrom_rel (pump (d.frame b)) (r := R) h.trans (h.check b) (fun s => h.step s.1 s.2) {} s

end RespectedByWaits

namespace RespectedByKeys

theorem amid (h : RespectedByKeys (Act.Amid d) R) : RespectedByKeys (Act.Waiting d) R :=
  { h with perform := fun ha => h.perform ha.amid }

theorem nextKey (h : RespectedByKeys (Act.Waiting d) R) (b : Buffer) (s : Keyed) :
    R s (nextKey (d.frame b) s).2 := by
  have hr := h.act (m := .render) (by simp) (.rendered b) s.1 s.2
  unfold Console.nextKey
  split
  · rename_i he; rw [he] at hr; exact hr
  · rename_i c he
    rw [he] at hr
    have hw := h.trans hr (h.wait b (c, s.2))
    split
    · rename_i he; rw [he] at hw; exact hw
    · rename_i t he
      rw [he] at hw
      have hk := h.trans hw (h.call (m := .readKey) (by simp) t.1 t.2)
      split
      · rename_i he; rw [he] at hk; exact hk
      · rename_i he
        rw [he] at hk
        split
        · exact hk
        · rename_i hn
          exact h.trans hk (h.typed hn _)

theorem edit (h : RespectedByKeys (Act.Amid d) R) (e : Editor) (s : Keyed) :
    R s (edit d e s).2 := by
  fun_induction Console.edit d e s with
  | case1 e s error he => exact h.amid.nextKey e.buffer s
  | case2 e s hk ih => exact h.trans (h.amid.nextKey e.buffer s) ih
  | case3 e s k hk s' outcome hp result c hc =>
    have hd := h.conclude e outcome s'.1 s'.2
    rw [hc] at hd
    exact h.trans (h.amid.nextKey e.buffer s) hd
  | case4 e s k hk s' e' request hp message c hc =>
    have hs := h.serveWith e'.keymap request s'.1 s'.2
    rw [hc] at hs
    exact h.trans (h.amid.nextKey e.buffer s) hs
  | case5 e s k hk s' e' request hp c hc ih =>
    have hs := h.serveWith e'.keymap request s'.1 s'.2
    rw [hc] at hs
    exact h.trans (h.amid.nextKey e.buffer s) (h.trans hs ih)

theorem readLine (h : RespectedByKeys (Act.Amid d) R) (e : Editor) (s : Keyed) :
    R s (readLine d e s).2 := by
  have hb := h.act (m := .enter) (a := .entered) (by simp) ⟨.bare rfl, rfl⟩ s.1 s.2
  unfold Console.readLine
  split
  · rename_i heq; rw [heq] at hb; exact hb
  · rename_i c heq
    rw [heq] at hb
    have ht := h.trans hb (h.trans (h.keymap e.keymap c s.2) (h.edit e (c.withKeymap e.keymap, s.2)))
    generalize Console.edit d e (c.withKeymap e.keymap, s.2) = r at ht
    obtain ⟨result, c', keys⟩ := r
    have hl := h.trans ht
      (h.act (m := .leave) (a := .left) (by simp) ⟨.bare rfl, rfl⟩ c' keys)
    dsimp only
    generalize c'.act .leave .left = left at hl
    obtain ⟨left, c''⟩ := left
    cases result with
    | error error => exact hl
    | ok outcome => cases left <;> exact hl

end RespectedByKeys

end Console

end RConsole
