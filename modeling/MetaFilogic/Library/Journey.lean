import MetaFilogic.Library.StateProgram

/-!
# Programs that can be interrupted

A program changes a state in steps and can be stopped after each of them.  The states that it
passes through are recorded, so that a property of all of them is one of all points of
interruption.
-/

namespace MetaFilogic

universe u

variable {σ α β : Type u}

structure Journey (σ : Type u) where
  now : σ
  seen : List σ

namespace Journey

def start (s : σ) : Journey σ := ⟨s, [s]⟩

def change (f : σ → σ) : StateM (Journey σ) PUnit :=
  modify fun journey => ⟨f journey.now, f journey.now :: journey.seen⟩

def look (f : σ → α) : StateM (Journey σ) α := do
  return f (← get).now

variable {journey : Journey σ}

theorem ensures_look {f : σ → α} {next : α → StateM (Journey σ) β} {post : β → Journey σ → Prop}
    (holds : Ensures (next (f journey.now)) journey post) :
    Ensures (look f >>= next) journey post :=
  holds

theorem ensures_change {f : σ → σ} {next : PUnit → StateM (Journey σ) β}
    {post : β → Journey σ → Prop}
    (holds : Ensures (next ⟨⟩) ⟨f journey.now, f journey.now :: journey.seen⟩ post) :
    Ensures (change f >>= next) journey post :=
  holds

def Adds (inv : σ → Prop) (before after : Journey σ) : Prop :=
  inv before.now →
    inv after.now ∧ ∃ new, after.seen = new ++ before.seen ∧ ∀ s ∈ new, inv s

instance (inv : σ → Prop) : Std.Refl (Adds inv) :=
  ⟨fun _ now => ⟨now, [], rfl, nofun⟩⟩

instance (inv : σ → Prop) : IsTrans (Journey σ) (Adds inv) where
  trans before middle after first second now := by
    obtain ⟨between, new, seen, holds⟩ := first now
    obtain ⟨last, newer, seenLater, holdsLater⟩ := second between
    refine ⟨last, newer ++ new, by rw [seenLater, seen, List.append_assoc], fun s member => ?_⟩
    exact (List.mem_append.mp member).elim (holdsLater s) (holds s)

abbrev Stays (inv : σ → Prop) (program : StateM (Journey σ) α) : Prop :=
  Preserves (Adds inv) program

variable {inv : σ → Prop}

theorem stays_change {f : σ → σ} (holds : ∀ s, inv s → inv (f s)) : Stays inv (change f) :=
  fun journey now => ⟨holds _ now, [f journey.now], rfl, fun _ member =>
    List.mem_singleton.mp member ▸ holds _ now⟩

theorem stays_look {f : σ → α} {next : α → StateM (Journey σ) β}
    (stays : ∀ s, inv s → Stays inv (next (f s))) : Stays inv (look f >>= next) :=
  fun journey now => stays journey.now now journey now

theorem Stays.now {program : StateM (Journey σ) α} (stays : Stays inv program)
    (now : inv journey.now) : Ensures program journey fun _ after => inv after.now :=
  (stays journey now).1

theorem Stays.ensures {program : StateM (Journey σ) α} {safe : σ → Prop} (stays : Stays inv program)
    (now : inv journey.now) (weaken : ∀ s, inv s → safe s) (seen : ∀ s ∈ journey.seen, safe s) :
    Ensures program journey fun _ after => inv after.now ∧ ∀ s ∈ after.seen, safe s := by
  obtain ⟨last, new, later, holds⟩ := stays journey now
  refine ⟨last, fun s member => ?_⟩
  rw [later] at member
  exact (List.mem_append.mp member).elim (fun added => weaken s (holds s added)) (seen s)

end Journey

end MetaFilogic
