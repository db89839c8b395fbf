import StreamScript.Proofs.Steady

/-!
# Runs that come to the same

Two drives are alike if they come to the same value and the same machine, or
both fail, whatever the worlds and the lines before. It is what `Act.Alike` is
for acts: work done in another order may come across another error first, and
nothing else is to be seen of the order.

Alike are in particular the same lines with calls that are alike
(`Drive.alike_lines`). So a program in which the functions are written in
another way is compared with the first body by body, and what is left is to
compare lines with lines.
-/

namespace StreamScript

variable {σ α β : Type}

namespace Drive

/-- **What a drive comes to**, if it does not fail: its value, and the machine
after it. The line it has reached and the world it leaves are not looked at. -/
def found (d : Drive σ α) (p : Progress) (w : World σ) : Option (α × Machine) :=
  match d.exec p w with
  | (.ok a, q, _) => some (a, q.machine)
  | (.error _, _, _) => none

/-- **Two drives that come to the same**, whatever worlds they meet: either
fails if the other does. -/
def Alike (d d' : Drive σ α) : Prop :=
  ∀ p p' w w', p.machine = p'.machine → d.found p w = d'.found p' w'

theorem result_eq_ok_iff_found {d : Drive σ α} {w : World σ} {m m' : Machine}
    {a : α} :
    d.result w m = .ok (a, m') ↔ d.found { machine := m } w = some (a, m') := by
  unfold result outcome found
  rcases d.exec { machine := m } w with ⟨_ | a', q, w'⟩
  · exact iff_of_false nofun nofun
  · exact ⟨fun h => congrArg some (Except.ok.inj h),
      fun h => congrArg Except.ok (Option.some.inj h)⟩

namespace Alike

/-- Alike drives have the same results, each read in a world of its own. -/
theorem result_eq_ok_iff {d d' : Drive σ α} (h : Alike d d') (w w' : World σ)
    {m m' : Machine} {a : α} :
    d.result w m = .ok (a, m') ↔ d'.result w' m = .ok (a, m') := by
  rw [result_eq_ok_iff_found, result_eq_ok_iff_found, h _ _ w w' rfl]

theorem pure (a : α) : Alike (σ := σ) (Pure.pure a) (Pure.pure a) :=
  fun _ _ _ _ h => congrArg (fun m => some (a, m)) h

theorem throw (e : RunError) :
    Alike (α := α) (σ := σ) (MonadExcept.throw e) (MonadExcept.throw e) :=
  fun _ _ _ _ _ => rfl

theorem bind {d d' : Drive σ α} {f f' : α → Drive σ β} (hd : Alike d d')
    (hf : ∀ a, Alike (f a) (f' a)) : Alike (d >>= f) (d' >>= f') := by
  intro p p' w w' h
  have hfound := hd p p' w w' h
  unfold found at hfound ⊢
  rw [exec_bind, exec_bind]
  rcases hx : d.exec p w with ⟨_ | a, q, v⟩ <;>
    rcases hy : d'.exec p' w' with ⟨_ | a', q', v'⟩ <;>
    rw [hx, hy] at hfound
  · cases hfound
  · cases hfound
  · obtain ⟨rfl, hm⟩ := Prod.mk.inj (Option.some.inj hfound)
    exact hf a q q' v v' hm

theorem machine : Alike (σ := σ) machine machine :=
  fun _ _ _ _ h => congrArg (fun m => some (m, m)) h

theorem become (m : Machine) : Alike (σ := σ) (become m) (become m) :=
  fun _ _ _ _ _ => rfl

theorem arrive (line : Nat) : Alike (σ := σ) (arrive line) (arrive line) :=
  fun _ _ _ _ h => congrArg (fun m => some ((), m)) h

theorem pause (host : Host σ) : Alike (pause host) (pause host) :=
  fun _ _ _ _ h => congrArg (fun m => some ((), m)) h

theorem perform {x y : Act σ α} (h : x.Alike y) :
    Alike (perform x) (perform y) := by
  intro p p' w w' hm
  have hw := h w w'
  unfold found
  rw [exec_perform, exec_perform]
  rcases hx : x.exec w with ⟨_ | a, v⟩ <;>
    rcases hy : y.exec w' with ⟨_ | a', v'⟩ <;>
    rw [hx, hy] at hw
  · cases hw
  · cases hw
  · obtain rfl := Option.some.inj hw
    exact congrArg (fun m => some (a, m)) hm

/-- The line that an error is put down to is of no matter. -/
theorem blame {d d' : Drive σ α} (h : Alike d d') (line : Nat) :
    Alike (blame line d) (blame line d') := by
  intro p p' w w' hm
  have hfound := h p p' w w' hm
  unfold found at hfound ⊢
  rw [exec_blame, exec_blame]
  rcases hx : d.exec p w with ⟨_ | a, q, v⟩ <;>
    rcases hy : d'.exec p' w' with ⟨_ | a', q', v'⟩ <;>
    rw [hx, hy] at hfound <;> exact hfound

end Alike

/-! ## What is alike

All that drives are made of is alike to itself, and putting alike drives
together gives alike ones. With this, what is known of lines of either kind
applies, and lines with calls that are alike are alike. -/

theorem alike_coupled (host : Host σ) :
    Coupled (fun x y : Act σ _ => x.Alike y)
      (fun d d' : Drive σ _ => Alike d d') host host where
  pure := .pure
  bind := .bind
  machine := .machine
  become := .become
  arrive := .arrive
  pause := .pause host
  perform := .perform
  blame line h := h.blame line

/-- **The same lines with calls that are alike** come to the same. -/
theorem alike_lines {calls calls' : Callables σ}
    (hc : Callables.Related (fun x y => Act.Alike x y) calls calls')
    (host : Host σ) (l : List (Placed Step)) :
    Alike (lines host calls none l) (lines host calls' none l) := by
  have hstale : Alike (isSuperseded host none) (isSuperseded host none) :=
    fun _ _ _ _ h =>
    congrArg (fun m => some (false, m)) h
  exact lines_related Act.alike_closed (alike_coupled host) hc hstale
    fun _ _ e _ =>
    .throw (.invalid e)

end Drive

end StreamScript
