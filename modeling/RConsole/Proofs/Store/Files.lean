import RConsole.Store.Files

namespace RConsole.Files

open Utf8 (Bytes)

variable {f f' : Files} {spot : Place} {p : Path} {bytes : Bytes}

theorem find?_replaced_of_ne {κ α : Type} [DecidableEq κ] {k q : κ} (hq : q ≠ k) (a : α)
    (l : List (κ × α)) :
    ((k, a) :: l.filter fun m => m.1 ≠ k).find? (fun m => m.1 = q) = l.find? fun m => m.1 = q := by
  rw [List.find?_cons_of_neg (by simpa using hq.symm), List.find?_filter]
  congr 1
  funext m
  by_cases hm : m.1 = q
  · simp [hm, hq]
  · simp [hm]

theorem node?_put_self (f : Files) (hs : spot ≠ []) (n : Node) :
    (f.put spot n).node? spot = some n := by
  simp [node?, put, hs]

theorem node?_put_of_ne (f : Files) {q : Place} (hq : q ≠ spot) (n : Node) :
    (f.put spot n).node? q = f.node? q := by
  unfold node? put
  rw [find?_replaced_of_ne hq]

theorem ne_nil_of_node? {n : Node} (h : f.node? spot = some n) (hn : ∀ mode, n ≠ .directory mode) :
    spot ≠ [] := by
  rintro rfl
  rw [node?, if_pos rfl] at h
  exact hn directoryMode (Option.some.inj h).symm

theorem enter_of_same (h : ∀ q mode, f.node? q = some (.directory mode) → f'.node? q = f.node? q)
    {start stop : Place} {step : Component} (he : f.enter start step = .ok stop) :
    f'.enter start step = .ok stop := by
  cases step with
  | root => exact he
  | here => exact he
  | _ =>
    simp only [enter] at he ⊢
    split at he
    · cases he
    · rename_i mode hd
      simp only [h start mode hd, hd]
      exact he
    · cases he

theorem walk_of_same (h : ∀ q mode, f.node? q = some (.directory mode) → f'.node? q = f.node? q)
    {steps : List Component} {start stop : Place} (hw : steps.foldlM f.enter start = .ok stop) :
    steps.foldlM f'.enter start = .ok stop := by
  induction steps generalizing start with
  | nil => exact hw
  | cons step steps ih =>
    rw [List.foldlM_cons] at hw ⊢
    cases he : f.enter start step with
    | error e =>
      rw [he] at hw
      cases hw
    | ok next =>
      rw [he] at hw
      rw [enter_of_same h he]
      exact ih hw

theorem place_put (hn : ∀ mode, f.node? spot ≠ some (.directory mode)) (n : Node)
    (hp : f.place p = .ok spot) : (f.put spot n).place p = .ok spot := by
  have hsame : ∀ q mode, f.node? q = some (.directory mode) → (f.put spot n).node? q = f.node? q := by
    intro q mode hq
    apply node?_put_of_ne
    rintro rfl
    exact hn mode hq
  unfold place at hp ⊢
  split at hp
  · cases hp
  · split at hp
    · cases hp
    · split at hp
      · cases hp
      · rw [if_neg ‹_›, if_neg ‹_›, if_neg ‹_›]
        exact walk_of_same hsame hp

theorem find_of_place {n : Node} (hp : f.place p = .ok spot) (hn : f.node? spot = some n)
    (hd : saysDirectory p = false) : f.find p = .ok (spot, n) := by
  unfold find
  rw [hp]
  dsimp only [bind, Except.bind]
  rw [hn]
  cases n with
  | directory mode => rfl
  | _ => simp [hd]

theorem find_put (hs : spot ≠ []) (hn : ∀ mode, f.node? spot ≠ some (.directory mode)) (n : Node)
    (hp : f.place p = .ok spot) (hd : saysDirectory p = false) :
    (f.put spot n).find p = .ok (spot, n) :=
  find_of_place (place_put hn n hp) (node?_put_self f hs n) hd

inductive Grown (f : Files) (p : Path) (bytes : Bytes) (f' : Files) : Prop where
  | old (spot : Place) (n : Node) (hf : f.find p = .ok (spot, n))
      (hn : ∀ mode, n ≠ .directory mode) (hf' : f'.find p = .ok (spot, appended bytes n))
  | new (spot : Place) (hf : f.find p = .error .missing)
      (hf' : f'.find p = .ok (spot, .file fileMode bytes))

theorem grown_append (h : f.append p bytes = .ok f') : Grown f p bytes f' := by
  unfold append at h
  cases hp : f.place p with
  | error e =>
    rw [hp] at h
    cases h
  | ok spot =>
    rw [hp] at h
    dsimp only [bind, Except.bind] at h
    cases hnode : f.node? spot with
    | none =>
      rw [hnode] at h
      dsimp only at h
      split at h
      · cases h
      · split at h
        · cases h
        · rename_i hd
          split at h
          · cases h
            have hs : spot ≠ [] := by
              rintro rfl
              cases hnode
            refine .new spot ?_ (find_put hs (by simp [hnode]) _ hp (Bool.not_eq_true _ ▸ hd))
            simp only [find, hp, bind, Except.bind, hnode]
          · cases h
    | some n =>
      rw [hnode] at h
      cases n with
      | directory mode => cases h
      | _ =>
        dsimp only at h
        split at h
        · cases h
        · split at h
          · cases h
          · rename_i hd
            cases h
            have hd' := Bool.not_eq_true _ ▸ hd
            have hs : spot ≠ [] := ne_nil_of_node? hnode (by simp)
            exact .old spot _ (find_of_place hp hnode hd') (by simp)
              (find_put hs (by simp [hnode]) _ hp hd')

inductive Contains (f : Files) (p : Path) : Bytes → Prop
  | file (spot : Place) (mode : Nat) (bytes : Bytes) (h : f.find p = .ok (spot, .file mode bytes)) :
    Contains f p bytes
  | missing (h : f.find p = .error .missing) : Contains f p []

theorem Contains.append {more : Bytes} (h : Contains f p bytes) (ha : f.append p more = .ok f') :
    Contains f' p (bytes ++ more) := by
  have hg := grown_append ha
  cases h with
  | file spot mode bytes hf =>
    cases hg with
    | old spot' n hf₁ hn hf' =>
      rw [hf] at hf₁
      cases hf₁
      exact .file spot mode _ hf'
    | new spot' hf₁ hf' =>
      rw [hf] at hf₁
      cases hf₁
  | missing hf =>
    cases hg with
    | old spot n hf₁ hn hf' =>
      rw [hf] at hf₁
      cases hf₁
    | new spot hf₁ hf' => exact .file spot _ _ hf'

end RConsole.Files
