import PoolFrontend.CallbackActivation

/-!
# References to the object a program runs on

The object lives as long as somebody holds a reference. How they are counted is a parameter. A
message under way holds one until it has been delivered, and a program that leaves a callback
gives it one of its own. A program that starts without a reference runs under the guard of its
caller.
-/
namespace CallbackReferences

open CallbackProgram CallbackRuns CallbackActivation

/-- What becomes of the count when an operation is started on the object or its callback has
returned, when a reference is acquired or released, and when the owner deletes the object. -/
structure ReferenceCounting where
  created : Nat
  started : Nat → Nat
  returned : Nat → Nat
  acquired : Nat → Nat
  released : Nat → Nat
  deleted : Nat → Nat

/-- The owner has one reference, and so has each operation until its callback has returned. -/
structure ReferenceCounting.Lawful (counts : ReferenceCounting) : Prop where
  created : counts.created = 1
  started : ∀ n, counts.started n = n + 1
  returned : ∀ n, counts.returned n = n - 1
  acquired : ∀ n, counts.acquired n = n + 1
  released : ∀ n, counts.released n = n - 1
  deleted : ∀ n, counts.deleted n = n - 1

def plainCounting : ReferenceCounting :=
  ⟨1, fun n => n + 1, fun n => n - 1, fun n => n + 1, fun n => n - 1, fun n => n - 1⟩

theorem plainCounting_lawful : plainCounting.Lawful := by
  constructor <;> intros <;> rfl

variable {I : Interface} (counts : ReferenceCounting)

/-- A run to the end with the count it starts from, the counts its statements find, and the
count it leaves. -/
inductive Counted : Program I → Nat → List I.Message → List (Callback I) → List Nat → Nat → Prop
  | done (n : Nat) : Counted .done n [] [] [] n
  | write (m : I.Message) {p : Program I} {n left : Nat} {ms : List I.Message}
      {ws : List (Callback I)} {seen : List Nat} : Counted p (counts.started n) ms ws seen left →
      Counted (.write m p) n (m :: ms) ws (n :: seen) left
  | acquire {p : Program I} {n left : Nat} {ms : List I.Message} {ws : List (Callback I)}
      {seen : List Nat} : Counted p (counts.acquired n) ms ws seen left →
      Counted (.acquire p) n ms ws (n :: seen) left
  | release {p : Program I} {n left : Nat} {ms : List I.Message} {ws : List (Callback I)}
      {seen : List Nat} : Counted p (counts.released n) ms ws seen left →
      Counted (.release p) n ms ws (n :: seen) left
  | ask (c : I.Call) {k : I.Answer c → Program I} (x : I.Answer c) {n left : Nat}
      {ms : List I.Message} {ws : List (Callback I)} {seen : List Nat} :
      Counted (k x) n ms ws seen left → Counted (.ask c k) n ms ws (n :: seen) left
  | issue (c : I.Call) (f : I.Answer c → Program I) {p : Program I} {n left : Nat}
      {ms : List I.Message} {ws : List (Callback I)} {seen : List Nat} :
      Counted p n ms ws seen left → Counted (.issue c f p) n ms (⟨c, f⟩ :: ws) (n :: seen) left

/-- One program after the other. -/
inductive CountedAll :
    List (Program I) → Nat → List I.Message → List (Callback I) → List Nat → Nat → Prop
  | nil (n : Nat) : CountedAll [] n [] [] [] n
  | cons {p : Program I} {ps : List (Program I)} {n mid left : Nat} {ms ms' : List I.Message}
      {ws ws' : List (Callback I)} {seen seen' : List Nat} : Counted counts p n ms ws seen mid →
      CountedAll ps mid ms' ws' seen' left →
      CountedAll (p :: ps) n (ms ++ ms') (ws ++ ws') (seen ++ seen') left

variable {counts}

/-- A program that only writes. -/
theorem countedAll_write (m : I.Message) (n : Nat) :
    CountedAll counts [.write m .done] n [m] [] [n] (counts.started n) :=
  .cons (.write m (.done _)) (.nil _)

theorem counted_executes {p : Program I} {n left : Nat} {ms : List I.Message}
    {ws : List (Callback I)} {seen : List Nat} (h : Counted counts p n ms ws seen left) :
    Executes p ms ws := by
  induction h with
  | done => exact .done
  | write m _ ih => exact .write m ih
  | acquire _ ih => exact .acquire ih
  | release _ ih => exact .release ih
  | ask c x _ ih => exact .ask c x ih
  | issue c f _ ih => exact .issue c f ih

theorem executes_counted {p : Program I} {ms : List I.Message} {ws : List (Callback I)}
    (h : Executes p ms ws) (n : Nat) : ∃ seen left, Counted counts p n ms ws seen left := by
  induction h generalizing n with
  | done => exact ⟨[], n, .done n⟩
  | write m _ ih =>
    obtain ⟨seen, left, hp⟩ := ih (counts.started n)
    exact ⟨n :: seen, left, .write m hp⟩
  | acquire _ ih =>
    obtain ⟨seen, left, hp⟩ := ih (counts.acquired n)
    exact ⟨n :: seen, left, .acquire hp⟩
  | release _ ih =>
    obtain ⟨seen, left, hp⟩ := ih (counts.released n)
    exact ⟨n :: seen, left, .release hp⟩
  | ask c x _ ih =>
    obtain ⟨seen, left, hp⟩ := ih n
    exact ⟨n :: seen, left, .ask c x hp⟩
  | issue c f _ ih =>
    obtain ⟨seen, left, hp⟩ := ih n
    exact ⟨n :: seen, left, .issue c f hp⟩

theorem executesAll_counted {ps : List (Program I)} {ms : List I.Message}
    {ws : List (Callback I)} (h : ExecutesAll ps ms ws) (n : Nat) :
    ∃ seen left, CountedAll counts ps n ms ws seen left := by
  induction h generalizing n with
  | nil => exact ⟨[], n, .nil n⟩
  | cons hp _ ih =>
    obtain ⟨seen, mid, hcount⟩ := executes_counted hp n
    obtain ⟨seen', left, hrest⟩ := ih mid
    exact ⟨seen ++ seen', left, .cons hcount hrest⟩

/-- The program owns `held` references: it gives one to each callback, releases no other, and
keeps none. Unless it is guarded it makes no statement without one of its own. -/
def Owns (guarded : Prop) : Nat → Program I → Prop
  | held, .done => held = 0
  | _, .abort => True
  | held, .write _ p => (guarded ∨ 0 < held) ∧ Owns guarded held p
  | held, .acquire p => (guarded ∨ 0 < held) ∧ Owns guarded (held + 1) p
  | held, .release p => 0 < held ∧ Owns guarded (held - 1) p
  | held, .ask _ k => (guarded ∨ 0 < held) ∧ ∀ x, Owns guarded held (k x)
  | held, .issue _ f p => 0 < held ∧ (∀ x, Owns False 1 (f x)) ∧ Owns guarded (held - 1) p

/-- The rule of the count: no statement finds the object gone, and what stays is a reference
for each message and each callback. -/
theorem counted_owned {guarded : Prop} {p : Program I} {held base n left : Nat}
    {ms : List I.Message} {ws : List (Callback I)} {seen : List Nat} (h : Owns guarded held p)
    (hcounts : counts.Lawful) (hguard : guarded → 0 < base) (hn : n = base + held)
    (hc : Counted counts p n ms ws seen left) :
    (∀ k ∈ seen, 0 < k) ∧ left = base + ms.length + ws.length ∧
      ∀ w ∈ ws, ∀ x, Owns False 1 (w.onAnswer x) := by
  have hfirst : ∀ {k : Nat}, guarded ∨ 0 < k → 0 < base + k := by
    intro k hk
    rcases hk with hg | hk
    · have := hguard hg
      omega
    · omega
  induction hc generalizing held base with
  | done n =>
    have hzero : held = 0 := h
    simp [hn, hzero]
  | write m _ ih =>
    obtain ⟨htouch, hrest⟩ := h
    have hmore : guarded → 0 < base + 1 := fun _ => Nat.succ_pos base
    have hstarted := hcounts.started
    obtain ⟨hseen, hleft, hws⟩ := ih hrest hmore (by grind) fun _ => by omega
    refine ⟨?_, ?_, hws⟩
    · simpa [hn, hfirst htouch] using hseen
    · simp only [hleft, List.length_cons]
      omega
  | acquire _ ih =>
    obtain ⟨htouch, hrest⟩ := h
    have hacquired := hcounts.acquired
    obtain ⟨hseen, hleft, hws⟩ := ih hrest hguard (by grind) hfirst
    refine ⟨?_, hleft, hws⟩
    simpa [hn, hfirst htouch] using hseen
  | release _ ih =>
    obtain ⟨hheld, hrest⟩ := h
    have hreleased := hcounts.released
    obtain ⟨hseen, hleft, hws⟩ := ih hrest hguard (by grind) hfirst
    refine ⟨?_, hleft, hws⟩
    simpa [hn, hfirst (.inr hheld)] using hseen
  | ask c x _ ih =>
    obtain ⟨htouch, hrest⟩ := h
    obtain ⟨hseen, hleft, hws⟩ := ih (hrest x) hguard hn hfirst
    refine ⟨?_, hleft, hws⟩
    simpa [hn, hfirst htouch] using hseen
  | issue c f _ ih =>
    obtain ⟨hheld, hf, hrest⟩ := h
    have hmore : guarded → 0 < base + 1 := fun _ => Nat.succ_pos base
    obtain ⟨hseen, hleft, hws⟩ := ih hrest hmore (by omega) fun _ => by omega
    refine ⟨?_, ?_, ?_⟩
    · simpa [hn, hfirst (.inr hheld)] using hseen
    · simp only [hleft, List.length_cons]
      omega
    · simpa using ⟨hf, hws⟩

/-- The same under one guard for programs that start without a reference of their own. -/
theorem countedAll_owned {ps : List (Program I)} {n left : Nat} {ms : List I.Message}
    {ws : List (Callback I)} {seen : List Nat} (h : ∀ p ∈ ps, Owns True 0 p)
    (hcounts : counts.Lawful) (hn : 0 < n)
    (hc : CountedAll counts ps n ms ws seen left) :
    (∀ k ∈ seen, 0 < k) ∧ left = n + ms.length + ws.length ∧
      ∀ w ∈ ws, ∀ x, Owns False 1 (w.onAnswer x) := by
  induction hc with
  | nil n => simp
  | cons hp _ ih =>
    obtain ⟨hseen, hmid, hws⟩ :=
      counted_owned (h _ List.mem_cons_self) hcounts (fun _ => hn) (Nat.add_zero _).symm hp
    obtain ⟨hseen', hleft, hws'⟩ := ih (fun p hp => h p (List.mem_cons_of_mem _ hp)) (by omega)
    refine ⟨?_, ?_, ?_⟩
    · intro k hk
      rcases List.mem_append.mp hk with hk | hk
      · exact hseen k hk
      · exact hseen' k hk
    · simp only [hleft, hmid, List.length_append]
      omega
    · intro w hw
      rcases List.mem_append.mp hw with hw | hw
      · exact hws w hw
      · exact hws' w hw

/-- The references a program owns in a phase. -/
def heldIn : Phase → Nat
  | .fresh => 0
  | .held => 1
  | .answered => 1

/-- A program that owes a message owns what its phase has acquired. -/
theorem inPhase_owns {guarded : Prop} {ph : Phase} {p : Program I} (h : InPhase ph p)
    (hguard : ph = .fresh → guarded) : Owns guarded (heldIn ph) p := by
  have htouch : guarded ∨ 0 < heldIn ph := by
    cases ph with
    | fresh => exact .inl (hguard rfl)
    | held | answered => exact .inr Nat.one_pos
  induction p generalizing guarded ph with
  | done | abort => cases ph <;> simp [InPhase] at h
  | write m p ih =>
    cases ph with
    | fresh =>
      rw [(inPhase_fresh_write m p).mp h]
      exact ⟨htouch, rfl⟩
    | held =>
      have hanswered : Owns guarded (heldIn .answered) p :=
        ih ((inPhase_held_write m p).mp h) (by simp) (.inr Nat.one_pos)
      exact ⟨htouch, hanswered⟩
    | answered => simp [InPhase] at h
  | acquire p ih =>
    cases ph with
    | fresh =>
      exact ⟨htouch, ih ((inPhase_fresh_acquire p).mp h) (by simp) (.inr Nat.one_pos)⟩
    | held | answered => simp [InPhase] at h
  | release p ih =>
    cases ph with
    | answered =>
      rw [(inPhase_answered_release p).mp h]
      exact ⟨Nat.one_pos, rfl⟩
    | fresh | held => simp [InPhase] at h
  | ask c k ih => exact ⟨htouch, fun x => ih x ((inPhase_ask _ c k).mp h x) hguard htouch⟩
  | issue c f p ihf ihp =>
    cases ph with
    | held =>
      obtain ⟨hf, hp⟩ := (inPhase_held_issue c f p).mp h
      rw [hp]
      exact ⟨Nat.one_pos, fun x => ihf x (hf x) (by simp) (.inr Nat.one_pos), rfl⟩
    | fresh | answered => simp [InPhase] at h

end CallbackReferences
