/-
What the receive path touches of the packet buffer.

A frame of `L` bytes is at the start of the buffer.  Every handler is called for
bytes of the frame, `pkt + len ≤ L`, checks its length before it looks at its
header, and hands on no more than it has; so no access leaves the frame, but for
the terminator that the server writes behind a content that ends with it.
-/
import JudgeDuck.Base.Trace
import JudgeDuck.Model.DuckServer

namespace JudgeDuck

namespace DuckNet

open Trace

/-! ### Accesses to a frame -/

/-- An access to a frame of `L` bytes; the byte behind it may be written and be the NUL
of a string. -/
def Access.Inside (L : Nat) : Access → Prop
  | .read a n => a + n ≤ L
  | .write a n => a + n ≤ L + 1
  | .nul a => a ≤ L
  | .layer _ _ => True
  | .reply _ => True

/-- A handler gets at most this length. -/
def Access.LayerLe (len : Int) : Access → Prop
  | .layer _ k => k ≤ len
  | _ => True

/-- Of two handlers, the inner one gets at most the length of the outer one. -/
def Access.Nested : Access → Access → Prop
  | .layer _ k, e => e.LayerLe k
  | _, _ => True

def Access.IsLayer : Access → Prop
  | .layer _ _ => True
  | _ => False

/-- What a handler that was given `len` bytes of a frame of `L` bytes may do. -/
structure Bounded (L : Nat) (len : Int) (l : List Access) : Prop where
  inside : ∀ e ∈ l, e.Inside L
  layers : ∀ e ∈ l, e.LayerLe len
  nested : l.Pairwise Access.Nested

/-- Accesses to the frame, and no handler. -/
def Plain (L : Nat) (l : List Access) : Prop := ∀ e ∈ l, e.Inside L ∧ ¬e.IsLayer

variable {L : Nat} {len : Int} {l l' : List Access}

theorem Plain.append (h : Plain L l) (h' : Plain L l') : Plain L (l ++ l') := by
  intro e he
  exact (List.mem_append.mp he).elim (h e) (h' e)

theorem Access.layerLe_of_not_isLayer {e : Access} (h : ¬e.IsLayer) : e.LayerLe len := by
  cases e <;> first | trivial | exact absurd trivial h

theorem Access.nested_of_not_isLayer {e e' : Access} (h : ¬e.IsLayer) : e.Nested e' := by
  cases e <;> first | trivial | exact absurd trivial h

theorem Bounded.append (h : Plain L l) (h' : Bounded L len l') : Bounded L len (l ++ l') := by
  refine ⟨fun e he => ?_, fun e he => ?_, List.pairwise_append.mpr ⟨?_, h'.nested, ?_⟩⟩
  · exact (List.mem_append.mp he).elim (fun he => (h e he).1) (h'.inside e)
  · exact (List.mem_append.mp he).elim (fun he => Access.layerLe_of_not_isLayer (h e he).2)
      (h'.layers e)
  · exact List.pairwise_of_forall_mem_list fun e he _ _ => Access.nested_of_not_isLayer (h e he).2
  · exact fun e he _ _ => Access.nested_of_not_isLayer (h e he).2

theorem Plain.bounded (h : Plain L l) : Bounded L len l := by
  have happend : Bounded L len (l ++ []) := Bounded.append h ⟨by simp, by simp, List.Pairwise.nil⟩
  rwa [List.append_nil] at happend

theorem Bounded.mono {k : Int} (h : Bounded L k l) (hk : k ≤ len) : Bounded L len l := by
  refine ⟨h.inside, fun e he => ?_, h.nested⟩
  have hle := h.layers e he
  cases e with
  | layer a k' => exact le_trans hle hk
  | read | write | nul | reply => trivial

/-- A handler and what it does. -/
theorem Bounded.layer (h : Bounded L len l) (a : Nat) : Bounded L len (.layer a len :: l) := by
  refine ⟨fun e he => ?_, fun e he => ?_, List.pairwise_cons.mpr ⟨h.layers, h.nested⟩⟩
  · rcases List.mem_cons.mp he with rfl | he
    · trivial
    · exact h.inside e he
  · rcases List.mem_cons.mp he with rfl | he
    · exact le_refl len
    · exact h.layers e he

/-! ### Accesses of the primitives -/

section Buffer

variable {α β : Type} {K : Mem → Prop}

/-- Accesses to the frame that keep what `K` says about the buffer. -/
def PlainBuf (L : Nat) (K : Mem → Prop) (x : BufM α) : Prop :=
  Emits Buf.log (fun s => K s.mem) (Plain L) (fun s => K s.mem) x

theorem PlainBuf.bind {x : BufM α} {f : α → BufM β} (hx : PlainBuf L K x)
    (hf : ∀ a, PlainBuf L K (f a)) : PlainBuf L K (x >>= f) :=
  Emits.bind hx hf fun _ _ => Plain.append

theorem PlainBuf.pure (a : α) : PlainBuf L K (Pure.pure a) :=
  Emits.pure a (fun _ => id) (by simp [Plain])

/-- One access. -/
theorem plain_singleton {e : Access} (h : e.Inside L) (hl : ¬e.IsLayer) : Plain L [e] := by
  intro e' he
  rw [List.mem_singleton.mp he]
  exact ⟨h, hl⟩

theorem plain_rd8 {a : Nat} (h : a + 1 ≤ L) : PlainBuf L K (rd8 a) :=
  fun _ hs => ⟨hs, [.read a 1], rfl, plain_singleton h id⟩

theorem plain_rd16 {a : Nat} (h : a + 2 ≤ L) : PlainBuf L K (rd16 a) :=
  fun _ hs => ⟨hs, [.read a 2], rfl, plain_singleton h id⟩

theorem plain_rd32 {a : Nat} (h : a + 4 ≤ L) : PlainBuf L K (rd32 a) :=
  fun _ hs => ⟨hs, [.read a 4], rfl, plain_singleton h id⟩

theorem plain_rd64 {a : Nat} (h : a + 8 ≤ L) : PlainBuf L K (rd64 a) :=
  fun _ hs => ⟨hs, [.read a 8], rfl, plain_singleton h id⟩

theorem plain_rdBytes {a n : Nat} (h : a + n ≤ L) : PlainBuf L K (rdBytes a n) :=
  fun _ hs => ⟨hs, [.read a n], rfl, plain_singleton h id⟩

theorem plain_rdMac {a : Nat} (h : a + 6 ≤ L) : PlainBuf L K (rdMac a) :=
  (plain_rd8 (by omega)).bind fun _ => (plain_rd8 (by omega)).bind fun _ =>
    (plain_rd8 (by omega)).bind fun _ => (plain_rd8 (by omega)).bind fun _ =>
      (plain_rd8 (by omega)).bind fun _ => (plain_rd8 (by omega)).bind fun _ => PlainBuf.pure _

/-- Nothing is said about the contents. -/
abbrev Anything : Mem → Prop := fun _ => True

theorem plain_wr8 {a : Nat} {v : UInt8} (h : a + 1 ≤ L) : PlainBuf L Anything (wr8 a v) :=
  fun _ _ => ⟨trivial, [.write a 1], rfl, plain_singleton (Nat.le_succ_of_le h) id⟩

theorem plain_wr16 {a : Nat} {v : UInt16} (h : a + 2 ≤ L) : PlainBuf L Anything (wr16 a v) :=
  fun _ _ => ⟨trivial, [.write a 2], rfl, plain_singleton (Nat.le_succ_of_le h) id⟩

theorem plain_wr32 {a : Nat} {v : UInt32} (h : a + 4 ≤ L) : PlainBuf L Anything (wr32 a v) :=
  fun _ _ => ⟨trivial, [.write a 4], rfl, plain_singleton (Nat.le_succ_of_le h) id⟩

theorem plain_swap16 {a : Nat} (h : a + 2 ≤ L) : PlainBuf L Anything (swap16 a) :=
  (plain_rd16 h).bind fun _ => plain_wr16 h

theorem plain_swap32 {a : Nat} (h : a + 4 ≤ L) : PlainBuf L Anything (swap32 a) :=
  (plain_rd32 h).bind fun _ => plain_wr32 h

theorem plain_udpHton {h : Nat} (hL : h + 8 ≤ L) : PlainBuf L Anything (udpHton h) :=
  (plain_swap16 (by omega)).bind fun _ => (plain_swap16 (by omega)).bind fun _ =>
    plain_swap16 (by omega)

theorem plain_arpHton {h : Nat} (hL : h + 8 ≤ L) : PlainBuf L Anything (arpHton h) :=
  (plain_swap16 (by omega)).bind fun _ => (plain_swap16 (by omega)).bind fun _ =>
    plain_swap16 (by omega)

theorem plain_ipv4Hton {h : Nat} (hL : h + 20 ≤ L) : PlainBuf L Anything (ipv4Hton h) :=
  (plain_rd8 (by omega)).bind fun _ => (plain_wr8 (by omega)).bind fun _ =>
    (plain_swap16 (by omega)).bind fun _ => (plain_swap16 (by omega)).bind fun _ =>
      (plain_swap16 (by omega)).bind fun _ => (plain_swap32 (by omega)).bind fun _ =>
        plain_swap32 (by omega)

end Buffer

/-! ### The handlers of ducknet -/

section Receive

variable {σ α β : Type} {K K' : Mem → Prop} {cfg : NetConfig} {hooks : Hooks σ}

/-- A computation on the whole state that accesses the buffer as `Q` says. -/
def Accesses (K : Mem → Prop) (Q : List Access → Prop) (K' : Mem → Prop) (x : RecvM σ α) : Prop :=
  Emits (fun s : RecvState σ => s.buf.log) (fun s => K s.buf.mem) Q (fun s => K' s.buf.mem) x

theorem PlainBuf.accesses {x : BufM α} (h : PlainBuf L K x) :
    Accesses (σ := σ) K (Plain L) K (onBuf x) := fun s hs => h s.buf hs

theorem accesses_onNet (f : Net → α × Net) : Accesses (σ := σ) K (Plain L) K (onNet f) :=
  fun _ hs => ⟨hs, [], (List.append_nil _).symm, by simp [Plain]⟩

theorem accesses_pure (a : α) : Accesses (σ := σ) K (Bounded L len) Anything (pure a) :=
  Emits.pure a (fun _ _ => trivial) (Plain.bounded (by simp [Plain]))

/-- Plain accesses, and then the rest of a handler. -/
theorem Accesses.bind {x : RecvM σ α} {f : α → RecvM σ β} (hx : Accesses K (Plain L) K' x)
    (hf : ∀ a, Accesses K' (Bounded L len) Anything (f a)) :
    Accesses K (Bounded L len) Anything (x >>= f) :=
  Emits.bind hx hf fun _ _ => Bounded.append

/-- A handler that was called with `len`. -/
theorem accesses_layer {a : Nat} {f : Unit → RecvM σ α}
    (hf : Accesses K (Bounded L len) Anything (f ())) :
    Accesses K (Bounded L len) Anything (onBuf (note (.layer a len)) >>= f) := by
  have hnote : Accesses (σ := σ) K (fun l => l = [.layer a len]) K (onBuf (note (.layer a len))) :=
    fun _ hs => ⟨hs, _, rfl, rfl⟩
  refine Emits.bind hnote (fun _ => hf) fun l l' hl hl' => ?_
  rw [hl]
  exact hl'.layer a

/-- A call of an inner handler. -/
theorem Accesses.mono {k : Int} {x : RecvM σ α} (hx : Accesses K (Bounded L k) Anything x)
    (hk : k ≤ len) : Accesses K (Bounded L len) Anything x :=
  Emits.weaken hx (fun _ => id) (fun _ => id) fun _ h => h.mono hk

/-- The hook of UDP stays inside the content it is called for. -/
def HookBounded (L : Nat) (hooks : Hooks σ) : Prop :=
  ∀ (src dst : UInt32) (hdr : Nat) (len : Int), 0 ≤ len → hdr + udpHeaderSize + len ≤ L →
    Accesses Anything (Bounded L len) Anything (hooks.udp src dst hdr len)

theorem bounded_udp (hhook : HookBounded L hooks) (src dst : UInt32) {pkt : Nat}
    (h : pkt + len ≤ L) :
    Accesses Anything (Bounded L len) Anything (udpPacketHandle hooks src dst pkt len) := by
  refine accesses_layer (Emits.ite (fun _ => accesses_pure _) fun hlen => ?_)
  have h8 : udpHeaderSize = 8 := rfl
  refine (PlainBuf.accesses (plain_udpHton (by omega))).bind fun _ => ?_
  have hcall := hhook src dst pkt (len - udpHeaderSize) (by omega) (by omega)
  have hrest : ∀ r : Int, Accesses (σ := σ) Anything (fun l => l = []) Anything
      (if r < 0 then pure r else pure 0) := fun r =>
    Emits.ite (fun _ => Emits.pure _ (fun _ => id) rfl) fun _ => Emits.pure _ (fun _ => id) rfl
  refine Emits.bind hcall hrest fun l l' hl hl' => ?_
  rw [hl', List.append_nil]
  exact hl.mono (by omega)

/-- The hooks that are `NULL`. -/
structure NullHooks (hooks : Hooks σ) : Prop where
  ether : ∀ pkt len, hooks.ether pkt len = pure 0
  arp : ∀ pkt len, hooks.arp pkt len = pure 0
  ipv4 : ∀ pkt len, hooks.ipv4 pkt len = pure 0
  icmp : ∀ src dst pkt len, hooks.icmp src dst pkt len = pure 0

theorem accesses_pure_plain (a : α) : Accesses (σ := σ) K (Plain L) K (pure a) :=
  Emits.pure a (fun _ => id) (by simp [Plain])

theorem bounded_icmp (hnull : NullHooks hooks) (src dst : UInt32) {pkt : Nat} (h : pkt + len ≤ L) :
    Accesses Anything (Bounded L len) Anything (icmpPacketHandle cfg hooks src dst pkt len) := by
  refine accesses_layer (Emits.ite (fun _ => accesses_pure _) fun hlen => ?_)
  have h8 : icmpHeaderSize = 8 := rfl
  rw [hnull.icmp]
  refine (accesses_pure_plain _).bind fun r => Emits.ite (fun _ => accesses_pure _) fun _ => ?_
  refine (PlainBuf.accesses (plain_rd8 (by omega))).bind fun type => ?_
  refine Emits.ite (fun _ => ?_) fun _ => accesses_pure _
  refine (PlainBuf.accesses (plain_rd8 (by omega))).bind fun code => ?_
  refine Emits.ite (fun _ => accesses_pure _) fun _ => ?_
  refine (PlainBuf.accesses (plain_wr8 (by omega))).bind fun _ => ?_
  refine (PlainBuf.accesses (plain_wr16 (by omega))).bind fun _ => ?_
  refine (PlainBuf.accesses (plain_rdBytes (by omega))).bind fun bs => ?_
  refine (PlainBuf.accesses (plain_wr16 (by omega))).bind fun _ => ?_
  refine (PlainBuf.accesses (plain_rdBytes (by omega))).bind fun payload => ?_
  exact (accesses_onNet _).bind fun _ => accesses_pure _

theorem bounded_ipv4 (hnull : NullHooks hooks) (hhook : HookBounded L hooks) {pkt : Nat}
    (h : pkt + len ≤ L) :
    Accesses Anything (Bounded L len) Anything (ipv4PacketHandle cfg hooks pkt len) := by
  refine accesses_layer (Emits.ite (fun _ => accesses_pure _) fun hlen => ?_)
  have h20 : ipv4HeaderSize = 20 := rfl
  refine (PlainBuf.accesses (plain_ipv4Hton (by omega))).bind fun _ => ?_
  rw [hnull.ipv4]
  refine (accesses_pure_plain _).bind fun r => Emits.ite (fun _ => accesses_pure _) fun _ => ?_
  refine (PlainBuf.accesses (plain_rd8 (by omega))).bind fun b => ?_
  refine Emits.ite (fun _ => accesses_pure _) fun _ => Emits.ite
    (fun _ => accesses_pure _) fun _ => ?_
  refine (PlainBuf.accesses (plain_rd16 (by omega))).bind fun length => ?_
  refine Emits.ite (fun _ => accesses_pure _) fun hfits => ?_
  refine (PlainBuf.accesses (plain_rd16 (by omega))).bind fun flags => ?_
  refine Emits.ite (fun _ => accesses_pure _) fun _ => ?_
  refine (PlainBuf.accesses (plain_rd32 (by omega))).bind fun dst => ?_
  refine Emits.ite (fun _ => accesses_pure _) fun _ => ?_
  refine (PlainBuf.accesses (plain_rd32 (by omega))).bind fun src => ?_
  refine (PlainBuf.accesses (plain_rd8 (by omega))).bind fun protocol => ?_
  -- the length field bounds what is handed on, and may be less than the header
  have hinner : ((pkt + ipv4HeaderSize : Nat) : Int) +
    ((length.toNat : Int) - ipv4HeaderSize) ≤ L := by
    omega
  refine Emits.ite (fun _ => ?_) fun _ => Emits.ite (fun _ => ?_) fun _ => accesses_pure _
  · exact (bounded_icmp hnull src dst hinner).mono (by omega)
  · exact (bounded_udp hhook src dst hinner).mono (by omega)

theorem bounded_arp (hnull : NullHooks hooks) {pkt : Nat} (h : pkt + len ≤ L) :
    Accesses Anything (Bounded L len) Anything (arpPacketHandle cfg hooks pkt len) := by
  refine accesses_layer (Emits.ite (fun _ => accesses_pure _) fun hlen => ?_)
  have h8 : arpHeaderSize = 8 := rfl
  refine (PlainBuf.accesses (plain_arpHton (by omega))).bind fun _ => ?_
  rw [hnull.arp]
  refine (accesses_pure_plain _).bind fun r => Emits.ite (fun _ => accesses_pure _) fun _ => ?_
  refine (PlainBuf.accesses (plain_rd16 (by omega))).bind fun htype => ?_
  refine (PlainBuf.accesses (plain_rd16 (by omega))).bind fun ptype => ?_
  refine Emits.ite (fun _ => ?_) fun _ => accesses_pure _
  refine (PlainBuf.accesses (plain_rd8 (by omega))).bind fun hlen' => ?_
  refine (PlainBuf.accesses (plain_rd8 (by omega))).bind fun plen => ?_
  refine Emits.ite (fun _ => accesses_pure _) fun _ => Emits.ite
    (fun _ => accesses_pure _) fun _ => ?_
  refine Emits.ite (fun _ => accesses_pure _) fun hpayload => ?_
  refine (PlainBuf.accesses (plain_rdMac (by omega))).bind fun sha => ?_
  refine (PlainBuf.accesses (plain_rd32 (by omega))).bind fun spa => ?_
  refine (PlainBuf.accesses (plain_rdMac (by omega))).bind fun tha => ?_
  refine (PlainBuf.accesses (plain_rd32 (by omega))).bind fun tpa => ?_
  refine (PlainBuf.accesses (plain_rd16 (by omega))).bind fun op => ?_
  refine Emits.ite (fun _ => Emits.ite (fun _ => ?_) fun _ => accesses_pure _) fun _ =>
    Emits.ite (fun _ => ?_) fun _ => accesses_pure _
  · exact (accesses_onNet _).bind fun _ => accesses_pure _
  · exact (accesses_onNet _).bind fun _ => accesses_pure _

theorem bounded_ether (hnull : NullHooks hooks) (hhook : HookBounded L hooks) {pkt : Nat}
    (h : pkt + len ≤ L) :
    Accesses Anything (Bounded L len) Anything (etherPacketHandle cfg hooks pkt len) := by
  refine accesses_layer (Emits.ite (fun _ => accesses_pure _) fun hlen => ?_)
  have h14 : etherHeaderSize = 14 := rfl
  refine (PlainBuf.accesses (plain_swap16 (by omega))).bind fun _ => ?_
  rw [hnull.ether]
  refine (accesses_pure_plain _).bind fun r => Emits.ite (fun _ => accesses_pure _) fun _ => ?_
  refine (PlainBuf.accesses (plain_rdMac (by omega))).bind fun dst => ?_
  refine Emits.ite (fun _ => accesses_pure _) fun _ => ?_
  refine (PlainBuf.accesses (plain_rd16 (by omega))).bind fun ethertype => ?_
  have hinner : ((pkt + etherHeaderSize : Nat) : Int) + (len - etherHeaderSize) ≤ L := by omega
  refine Emits.ite (fun _ => ?_) fun _ => Emits.ite (fun _ => ?_) fun _ => accesses_pure _
  · exact (bounded_arp hnull hinner).mono (by omega)
  · exact (bounded_ipv4 hnull hhook hinner).mono (by omega)

end Receive

end DuckNet

end JudgeDuck
