/-
The answers fit their buffers.

An answer is printed over the request and can be longer than it.  The longest ones
repeat a name from the request: the name comes after the command, so the command and
the name fit the content, and what is added is less than the 50 bytes between the
largest content and the end of the packet.  `Good` is the invariant along a handler:
all writes so far are inside their buffers.
-/
import JudgeDuck.Base.Partial
import JudgeDuck.Model.DuckReply
import JudgeDuck.Proofs.Judger.Requests

namespace JudgeDuck

namespace DuckReply

open Format DuckServer Partial Judger

/-! ### The invariant -/

/-- A name of 48 characters, at most 309 digits with a point and 5 more for `%.5lf`, and a result
with one of the errors of the judge. -/
structure WorldOk (w : World) : Prop where
  name : w.cpuModelName.length ≤ 48
  clock : ∀ clkThread clkRefTsc tscMHz, (w.clockMHz clkThread clkRefTsc tscMHz).length ≤ 315
  error : KnownError w.judger

def Write.Fits (x : Write) : Prop := x.off + x.len ≤ x.buf.size

structure Good (s : State) : Prop where
  world : WorldOk s.world
  fits : ∀ x ∈ s.writes, x.Fits

/-- An answer of at most `n` bytes in a buffer. -/
def Answers (buf : Buf) (n : Nat) (c : Claimed) : Prop :=
  ∀ r, c = some (some r) → r.buf = buf ∧ 0 ≤ r.len ∧ r.len ≤ n

/-- The same, and there is an answer. -/
def Answered (buf : Buf) (n : Nat) (c : Claimed) : Prop :=
  ∃ r, c = some (some r) ∧ r.buf = buf ∧ 0 ≤ r.len ∧ r.len ≤ n

variable {buf : Buf} {content : List UInt8} {α : Type} {n : Nat}

theorem Answered.answers {c : Claimed} (h : Answered buf n c) : Answers buf n c := by
  obtain ⟨r, rfl, hr⟩ := h
  intro r' hr'
  rw [← Option.some.inj (Option.some.inj hr')]
  exact hr

theorem Answers.mono {c : Claimed} {k : Nat} (h : Answers buf n c) (hn : n ≤ k) :
    Answers buf k c := by
  intro r hr
  obtain ⟨hb, h0, hle⟩ := h r hr
  exact ⟨hb, h0, by omega⟩

theorem answers_none : Answers buf n none := fun _ h => nomatch h

theorem answers_silent : Answers buf n (some none) := fun _ h => nomatch h

/-! ### Statements -/

theorem sound_write {off len : Nat} (h : off + len ≤ buf.size) :
    Sound Good (fun _ => True) (write buf off len) := by
  intro s hs a s' ha
  obtain ⟨-, rfl⟩ := Prod.mk.inj (Option.some.inj ha)
  refine ⟨⟨hs.world, fun x hx => ?_⟩, trivial⟩
  rcases List.mem_append.mp hx with hx | hx
  · exact hs.fits x hx
  · rw [List.mem_singleton.mp hx]
    exact h

theorem sound_world : Sound Good WorldOk world := by
  intro s hs a s' ha
  obtain ⟨rfl, rfl⟩ := Prod.mk.inj (Option.some.inj ha)
  exact ⟨hs, hs.world⟩

theorem sound_judger {f : Judger → Option (α × Judger)} {Q : α → Prop}
    (hf : ∀ s, KnownError s → ∀ a s', f s = some (a, s') → KnownError s' ∧ Q a) :
    Sound Good Q (judger f) := by
  intro s hs a s' ha
  obtain ⟨⟨b, j⟩, hb, hr⟩ := Option.map_eq_some_iff.mp ha
  obtain ⟨rfl, rfl⟩ := Prod.mk.inj hr
  obtain ⟨hj, hQ⟩ := hf _ hs.world.error _ _ hb
  exact ⟨⟨⟨hs.world.name, hs.world.clock, hj⟩, hs.fits⟩, hQ⟩

theorem sound_sprintf {text : List UInt8} (h : text.length + 1 ≤ buf.size) :
    Sound Good (fun n => n = text.length) (sprintf buf text) :=
  (sound_write (by omega)).seq fun _ => .pure rfl

theorem sound_snprintf {text : List UInt8} {size : Nat} (h : size ≤ buf.size) :
    Sound Good (fun n => n = text.length) (snprintf buf size text) :=
  (sound_write (by omega)).seq fun _ => .pure rfl

theorem sound_answer {text : List UInt8} (h : text.length ≤ n) (hn : n < buf.size) :
    Sound Good (Answered buf n) (reply buf text) :=
  (sound_sprintf (by omega)).bind fun k hk =>
    .pure ⟨_, rfl, rfl, Int.natCast_nonneg k, by show (k : Int) ≤ n; omega⟩

theorem sound_reply {text : List UInt8} (h : text.length ≤ n) (hn : n < buf.size) :
    Sound Good (Answers buf n) (reply buf text) :=
  (sound_answer h hn).weaken fun _ => Answered.answers

theorem sound_replyIf {text : List UInt8} {ok : Bool} (h : text.length ≤ n) (hn : n < buf.size) :
    Sound Good (Answers buf n) (replyIf ok buf text) :=
  .ite (fun _ => sound_reply h hn) fun _ => .pure answers_silent

theorem sound_storeWords : ∀ {args : List Arg},
    (∀ word, Arg.string word ∈ args → word.length ≤ 1472) →
    Sound Good (fun _ => True) (storeWords args) := by
  intro args
  induction args with
  | nil => exact fun _ => .pure trivial
  | cons a args ih =>
      intro h
      have hrest := ih fun word hw => h word (List.mem_cons_of_mem _ hw)
      cases a with
      | string word =>
          have hword := h word List.mem_cons_self
          exact (sound_write (by show 0 + (word.length + 1) ≤ 2048; omega)).seq fun _ => hrest
      | number n => exact hrest
      | integer n => exact hrest

/-- What a scan converts. -/
def Scanned (content : List UInt8) (format : String) (args : List Arg) : Prop :=
  args = scan (directives (ascii format)) (content.takeWhile (· ≠ 0))

theorem length_cstring (content : List UInt8) :
    (content.takeWhile (· ≠ 0)).length ≤ content.length :=
  (List.takeWhile_prefix _).length_le

theorem sound_sscanf (h : content.length ≤ 1472) (format : String) :
    Sound Good (Scanned content format) (sscanf content format) := by
  refine (sound_storeWords fun word hw => ?_).seq fun _ => .pure rfl
  exact (length_word hw).trans ((length_cstring content).trans h)

/-- The command and the name fit the content. -/
theorem Scanned.length_word {format : String} {args : List Arg} {word : List UInt8}
    (h : Scanned content format args) {command : String} {ds : List Directive}
    (hf : directives (ascii format) = (ascii command).map .char ++ ds) (hw : .string word ∈ args) :
    (ascii command).length + word.length ≤ content.length := by
  rw [h, hf] at hw
  exact (length_word_chars hw).trans (length_cstring content)

/-! ### Lengths of texts -/

theorem append_le {xs ys : List α} {a b : Nat} (hx : xs.length ≤ a) (hy : ys.length ≤ b) :
    (xs ++ ys).length ≤ a + b := by
  rw [List.length_append]
  omega

theorem flatten_le {xs : List α} {xss : List (List α)} {a b : Nat} (hx : xs.length ≤ a)
    (hxs : xss.flatten.length ≤ b) : (xs :: xss).flatten.length ≤ a + b := by
  rw [List.flatten_cons]
  exact append_le hx hxs

/-- A constant text has the length that it has. -/
theorem ascii_le (s : String) : (ascii s).length ≤ (ascii s).length := Nat.le_refl _

/-! ### `process_controls` -/

theorem get_bounds (log : SysLog) (start : Int) {len : Int} (h : 0 ≤ len) :
    0 ≤ log.get start len ∧ log.get start len ≤ len := by
  have hbuf : 0 ≤ ((log.tail : Int) - log.head + SysLog.maxLogLen).tmod SysLog.maxLogLen := by
    refine Int.tmod_nonneg _ ?_
    have := log.head.isLt
    unfold SysLog.maxLogLen
    omega
  unfold SysLog.get
  generalize ((log.tail : Int) - log.head + SysLog.maxLogLen).tmod SysLog.maxLogLen = bufLen at hbuf
  dsimp only
  generalize (if start < 0 then bufLen + start else start) = start1
  generalize (if start1 < 0 then 0 else start1) = start2
  have hstart : (if start2 > bufLen then bufLen else start2) ≤ bufLen := by
    split <;> omega
  split <;> omega

/-- An answer is short, or it is a part of the log. -/
theorem sound_processControls (hbuf : 1473 ≤ buf.size) (hc : content.length ≤ 1472) :
    Sound Good (fun c => Answers buf 1400 c ∧
      (scan (directives (ascii "syslog %d %d")) (content.takeWhile (· ≠ 0)) = [] →
        Answers buf 69 c))
      (processControls buf content) := by
  have short : ∀ {text : List UInt8}, text.length ≤ 69 → Sound Good (fun c => Answers buf 1400 c ∧
      (scan (directives (ascii "syslog %d %d")) (content.takeWhile (· ≠ 0)) = [] →
        Answers buf 69 c)) (reply buf text) := fun h =>
    (sound_reply h (by omega)).weaken fun c hc => ⟨hc.mono (by omega), fun _ => hc⟩
  unfold processControls
  refine (sound_write (by omega)).seq fun _ => sound_world.bind fun w hw => ?_
  refine .ite (fun _ => short ?uptime) fun _ => .ite (fun _ => short ?statistics) fun _ =>
    .ite (fun _ => short ?temp) fun _ => .ite (fun _ => short ?model) fun _ =>
    .ite (fun _ => short ?sysinfo) fun _ => (sound_sscanf hc _).bind fun args hargs => ?syslog
  case uptime => exact (append_le (ascii_le _) (length_lu _)).trans (by decide)
  case statistics =>
    exact (append_le (append_le (append_le (ascii_le _) (length_lu _)) (ascii_le _))
      (length_lu _)).trans (by decide)
  case temp => exact (append_le (ascii_le _) (length_lu _)).trans (by decide)
  case model => exact (append_le (ascii_le _) hw.name).trans (by decide)
  case sysinfo =>
    exact (append_le (append_le (append_le (append_le (ascii_le _) (length_x02 _)) (ascii_le _))
      (length_x02 _)) (ascii_le _)).trans (by decide)
  case syslog =>
    split
    · rename_i start len
      refine .ite (fun hlen => ?_) fun _ => .pure ⟨answers_silent, fun _ => answers_silent⟩
      have hget := get_bounds w.log start hlen.1
      refine (sound_write (by omega)).seq fun _ => .pure ⟨fun r hr => ?_, fun hnil => ?_⟩
      · rw [← Option.some.inj (Option.some.inj hr)]
        exact ⟨rfl, hget.1, hget.2.trans hlen.2⟩
      · rw [Scanned, hnil] at hargs
        cases hargs
    · exact .pure ⟨answers_none, fun _ => answers_none⟩

/-! ### `process_data` -/

/-- A command of the buffer. -/
theorem sound_command {f : Judger → Bool × Judger} (c : Command)
    (hf : ∀ s, (f s).2 = (c.run s).2) : Sound Good (fun _ => True)
    (judger fun s => some (f s)) := by
  refine sound_judger fun s hs a s' ha => ⟨?_, trivial⟩
  rw [← (Prod.mk.inj (Option.some.inj ha)).2, hf s]
  exact Command.run_knownError hs c

theorem sound_clearBuffer (off len : UInt64) :
    Sound Good (fun _ => True) (judger fun s => some (clearBuffer off len s)) :=
  sound_command (.clear off len) fun _ => rfl

theorem sound_writeBuffer (off : UInt64) (data : Nat → UInt8) (len : UInt64) :
    Sound Good (fun _ => True) (judger fun s => some (writeBuffer off data len s)) :=
  sound_command (.write off data len) fun _ => rfl

theorem sound_copyBuffer (dst src len : UInt64) :
    Sound Good (fun _ => True) (judger fun s => some (copyBuffer dst src len s)) :=
  sound_command (.copy dst src len) fun _ => rfl

theorem sound_processRead (off len : UInt64) :
    Sound Good (Answers .content 1422) (processRead off len) := by
  refine .ite (fun _ => .pure answers_silent) fun hlen => sound_world.bind fun w hw => ?_
  have hlen' : len.toNat ≤ 1400 := UInt64.le_iff_toNat_le.mp (UInt64.not_lt.mp hlen)
  split
  · refine (sound_write (by show 0 + len.toNat ≤ 2048; omega)).seq fun _ =>
      (sound_sprintf (by decide)).bind fun n hn => ?_
    have hn' : n = 14 := hn.trans (by decide)
    subst hn'
    refine (sound_write (by decide)).seq fun _ =>
      (sound_write (by show 14 + 8 + len.toNat ≤ 1522; omega)).seq fun _ => .pure fun r hr => ?_
    rw [← Option.some.inj (Option.some.inj hr)]
    exact ⟨rfl, by show (0 : Int) ≤ (14 : Nat) + 8 + len.toNat; omega,
      by show ((14 : Nat) : Int) + 8 + len.toNat ≤ (1422 : Nat); omega⟩
  · exact .pure answers_silent

theorem sound_processWrite : Sound Good (Answers .content 1422) (processWrite content) := by
  refine .ite (fun _ => .pure answers_silent) fun _ => (sound_writeBuffer _ _ _).seq
    fun ok => sound_replyIf ?_ (by decide)
  exact (append_le (append_le (append_le (ascii_le _) (length_lu _)) (ascii_le _))
    (length_lu _)).trans (by decide)

theorem sound_processTwo (hc : content.length ≤ 1472) :
    Sound Good (Answers .content 1422) (processTwo content) := by
  refine (sound_sscanf hc _).bind fun args _ => ?_
  split
  · refine (sound_copyBuffer _ _ _).seq fun ok => sound_replyIf ?_ (by decide)
    exact (append_le (append_le (append_le (append_le (append_le (ascii_le _) (length_lu _))
      (ascii_le _)) (length_lu _)) (ascii_le _)) (length_lu _)).trans (by decide)
  · refine (sound_sscanf hc _).bind fun args _ => ?_
    split
    · refine sound_world.bind fun w _ => ?_
      split
      · refine sound_reply ?_ (by decide)
        exact (append_le
          (append_le (append_le (append_le (append_le (append_le (append_le (ascii_le _)
          (length_lu _)) (ascii_le _)) (length_lu _)) (ascii_le _)) (length_lu _)) (ascii_le _))
          (length_lu _)).trans (by decide)
      · exact .pure answers_silent
    · exact .pure answers_none

theorem sound_processData (hc : content.length ≤ 1472) :
    Sound Good (Answers .content 1422) (processData content) := by
  refine (sound_write (by show _ ≤ 1522; omega)).seq fun _ => .ite (fun _ => ?_) fun _ => ?_
  · refine sound_world.bind fun w _ => sound_reply ?_ (by decide)
    exact (append_le (ascii_le _) (length_lu _)).trans (by decide)
  · refine (sound_sscanf hc _).bind fun args _ => ?_
    split
    · refine (sound_clearBuffer _ _).seq fun ok => sound_replyIf ?_ (by decide)
      exact (append_le (append_le (append_le (ascii_le _) (length_lu _)) (ascii_le _))
        (length_lu _)).trans (by decide)
    · refine (sound_sscanf hc _).bind fun args _ => ?_
      split
      · exact sound_processRead _ _
      · exact .ite (fun _ => sound_processWrite) fun _ => sound_processTwo hc

/-! ### `process_judge` -/

theorem length_failedText {error : Option String}
    (h : error ∈ [none, some "Not Judged", some "Can't load ELF", some "Invalid time limit"])
    {e : String}
    (he : error = some e) : (failedText e).length ≤ 1024 := by
  have he' : (ascii e).length ≤ 18 := by
    subst he
    simp only [List.mem_cons, Option.some.injEq, List.not_mem_nil, or_false, reduceCtorEq,
      false_or] at h
    rcases h with rfl | rfl | rfl <;> decide
  exact (append_le (append_le (ascii_le _) he') (ascii_le _)).trans (by decide)

theorem length_resultText {w : World} (hw : WorldOk w) (r : JudgeResult) :
    (resultText w r).length ≤ 1024 := by
  have hclock : (if r.clkRefTsc ≠ 0 then
      w.clockMHz r.clkThread r.clkRefTsc (w.timer.tscFreq / 1000000) else ascii "0.00000").length
      ≤ 315 := by
    split
    · exact hw.clock _ _ _
    · decide
  have hstatus : (ascii (if r.isRE then "Runtime Error" else
      if r.isTLE then "Time Limit Exceeded" else "Run Finished")).length ≤ 19 := by
    split
    · decide
    · split <;> decide
  have hcode : (Format.d r.returnCode.toInt).length ≤ 11 := by
    have h1 := r.returnCode.le_toInt
    have h2 := r.returnCode.toInt_lt
    exact length_d (by omega)
  have htrap : (Format.d r.trapNum.toNat).length ≤ 11 := by
    have := r.trapNum.toNat_lt
    exact length_d (by omega)
  have hl := fun n => length_lu n
  have hx := fun n => length_lx n
  refine (flatten_le (ascii_le _) (flatten_le (hl _) (flatten_le (ascii_le _) (flatten_le (hl _)
    (flatten_le (ascii_le _) (flatten_le (hl _) (flatten_le (ascii_le _) (flatten_le hclock
    (flatten_le (ascii_le _) (flatten_le (hl _) (flatten_le (ascii_le _) (flatten_le (hl _)
    (flatten_le (ascii_le _) (flatten_le (hl _) (flatten_le (ascii_le _) (flatten_le (hl _)
    (flatten_le (ascii_le _) (flatten_le (hl _) (flatten_le (ascii_le _) (flatten_le (hl _)
    (flatten_le (ascii_le _) (flatten_le (hl _) (flatten_le (ascii_le _) (flatten_le (hl _)
    (flatten_le (ascii_le _) (flatten_le (hl _) (flatten_le (ascii_le _) (flatten_le (hl _)
    (flatten_le (ascii_le _) (flatten_le hcode (flatten_le (ascii_le _) (flatten_le htrap
    (flatten_le (ascii_le _) (flatten_le (hx _) (flatten_le (ascii_le _) (flatten_le (hx _)
    (flatten_le (ascii_le _) (flatten_le hstatus (flatten_le (ascii_le _) (Nat.le_refl
    _)))))))))))))))))))))))))))))))))))))))).trans (by decide)

theorem sound_processJudge (hc : content.length ≤ 1472) :
    Sound Good (Answers .resStr 1024) (processJudge content) := by
  refine (sound_write (by show _ ≤ 1522; omega)).seq fun _ => (sound_sscanf hc _).bind
    fun args _ => ?_
  split
  · refine sound_world.bind fun w hw => (sound_judger (Q := fun r =>
      r.error ∈ [none, some "Not Judged", some "Can't load ELF", some "Invalid time limit"])
      fun s hs r s' hj => ?_).bind fun r hr => ?_
    · obtain ⟨hk, he⟩ := judge_knownError hs hj
      refine ⟨hk, ?_⟩
      rw [← he]
      exact hk
    · have hlen : ∀ text : List UInt8, (∀ e, r.error = some e → text = failedText e) →
          (r.error = none → text = resultText w r) → text.length ≤ 1024 := by
        intro text hfailed hresult
        cases he : r.error with
        | none =>
            rw [hresult he]
            exact length_resultText hw r
        | some e =>
            rw [hfailed e he]
            exact length_failedText hr he
      refine (sound_snprintf (Nat.le_refl _)).bind fun n hn => .pure fun r' hr' => ?_
      rw [← Option.some.inj (Option.some.inj hr'), hn]
      refine ⟨rfl, Int.natCast_nonneg _, Int.ofNat_le.mpr (hlen _ (fun e he => ?_) fun he => ?_)⟩
      · rw [he]
      · rw [he]
  · exact .pure answers_none

/-! ### `process_cache` -/

theorem length_info (c : DuckCache) : (info c).length ≤ 133 :=
  (append_le (append_le (append_le (append_le (append_le (append_le (append_le (append_le (append_le
    (ascii_le _) (length_lu _)) (ascii_le _)) (length_lu _)) (ascii_le _)) (length_lu _))
      (ascii_le _))
    (length_lu _)) (ascii_le _)) (length_lu _)).trans (by decide)

/-- The information is long only for the two names that exist, which are short. -/
theorem length_getCacheInfo (s : Judger) (word : List UInt8) :
    (getCacheInfo s word).length ≤ 13 ∨ word.length ≤ 4 ∧ (getCacheInfo s word).length ≤ 133 := by
  unfold getCacheInfo
  by_cases helf : word = ascii "elf"
  · rw [if_pos helf, helf]
    exact .inr ⟨by decide, length_info _⟩
  · rw [if_neg helf]
    by_cases hdata : word = ascii "data"
    · rw [if_pos hdata, hdata]
      exact .inr ⟨by decide, length_info _⟩
    · rw [if_neg hdata]
      exact .inl (by decide)

/-- The longest answer to a content of `n` bytes: the name that it holds and what is added, or the
information on a cache. -/
def cacheBound (n : Nat) : Nat := max (n + 48) 149

theorem sound_processInfo (hbuf : 1521 ≤ buf.size) (hc : content.length ≤ 1472) :
    Sound Good (Answers buf (cacheBound content.length)) (processInfo buf content) := by
  have hbound : cacheBound content.length < buf.size := by
    unfold cacheBound
    omega
  refine (sound_sscanf hc _).bind fun args hargs => ?_
  split
  · rename_i word
    have hword : (ascii "info-cache").length + word.length ≤ content.length := hargs.length_word rfl
      (List.mem_singleton.mpr rfl)
    refine sound_world.bind fun w _ => ?_
    have hinfo := length_getCacheInfo w.judger word
    have hcommand : (ascii "info-cache").length = 10 := by decide
    have htext : (ascii "info-cache " ++ word ++ ascii " " ++ getCacheInfo w.judger word).length
        = 11 + word.length + 1 + (getCacheInfo w.judger word).length := by
      rw [List.length_append, List.length_append, List.length_append]
      rfl
    refine (sound_sprintf (by show _ ≤ 2048; omega)).bind fun _ _ => sound_reply ?_ hbound
    rw [htext]
    unfold cacheBound
    omega
  · exact .pure answers_none

theorem sound_sscanfLong (h : content.length ≤ 1472) (format : String) :
    Sound Good (fun args => args = [] ∨ Scanned content format args) (sscanfLong content format) :=
  .ite (fun _ => (sound_sscanf h format).weaken fun _ => .inr) fun _ => .pure (.inl rfl)

theorem length_cacheText {done : String} {n : Nat} (hdone : (ascii done).length ≤ n)
    (word : List UInt8) (off len : UInt64) :
    (cacheText done word off len).length ≤ n + word.length + 42 := by
  have h := append_le (append_le (append_le (append_le (append_le hdone (Nat.le_refl word.length))
    (ascii_le " ")) (length_lu off)) (ascii_le " ")) (length_lu len)
  exact h.trans (Nat.le_of_eq (by show _ + 1 + 20 + 1 + 20 = _; omega))

theorem sound_processCache (S : StdSort) (hbuf : 1521 ≤ buf.size) (hc : content.length ≤ 1472) :
    Sound Good (Answers buf (cacheBound content.length)) (processCache S buf content) := by
  have hbound : cacheBound content.length < buf.size := by
    unfold cacheBound
    omega
  refine (sound_write (by omega)).seq fun _ => sound_world.bind fun w _ =>
    (sound_sscanfLong hc _).bind fun args hargs => ?_
  split
  · rename_i word off len
    have hword : (ascii "load-cache").length + word.length ≤ content.length :=
      (hargs.resolve_left (List.cons_ne_nil _ _)).length_word rfl List.mem_cons_self
    have hcommand : (ascii "load-cache").length = 10 := by decide
    refine (sound_judger (Q := fun _ => True) fun s hs ok s' hl =>
      ⟨loadCache_knownError hs hl, trivial⟩).seq fun ok => sound_reply ?_ hbound
    have hdone : (ascii (if ok then "ok-load-cache " else "fail-load-cache ")).length ≤ 16 := by
      split <;> decide
    have htext := length_cacheText hdone word off len
    unfold cacheBound
    omega
  · refine (sound_sscanfLong hc _).bind fun args hargs => ?_
    split
    · rename_i word off len
      have hword : (ascii "store-cache").length + word.length ≤ content.length :=
        (hargs.resolve_left (List.cons_ne_nil _ _)).length_word rfl List.mem_cons_self
      have hcommand : (ascii "store-cache").length = 11 := by decide
      refine (sound_judger (Q := fun _ => True) fun s hs ok s' hl =>
        ⟨storeCache_knownError hs hl, trivial⟩).seq fun ok => sound_reply ?_ hbound
      have hdone : (ascii (if ok then "ok-store-cache " else "fail-store-cache ")).length ≤ 17 := by
        split <;> decide
      have htext := length_cacheText hdone word off len
      unfold cacheBound
      omega
    · exact sound_processInfo hbuf hc

/-! ### `process_special` -/

theorem sound_uptime : Sound Good (Answered .tmpQuery 63)
    (processControls .tmpQuery (ascii "uptime")) :=
  (sound_write (by decide)).seq fun _ => sound_world.bind fun w _ =>
    .ite (fun _ => sound_answer ((append_le (ascii_le _) (length_lu _)).trans (by decide))
      (by decide)) fun h => absurd rfl h

theorem sound_statistics :
    Sound Good (Answered .tmpQuery 63) (processControls .tmpQuery (ascii "statistics")) := by
  refine (sound_write (by decide)).seq fun _ => sound_world.bind fun w _ =>
    .ite (fun h => absurd h (by decide)) fun _ => .ite (fun _ => ?_) fun h => absurd rfl h
  exact sound_answer ((append_le (append_le (append_le (ascii_le _) (length_lu _)) (ascii_le _))
    (length_lu _)).trans (by decide)) (by decide)

theorem sound_cpuTemp :
    Sound Good (Answered .tmpQuery 63) (processControls .tmpQuery (ascii "cpu-temp")) := by
  refine (sound_write (by decide)).seq fun _ => sound_world.bind fun w _ =>
    .ite (fun h => absurd h (by decide)) fun _ => .ite (fun h => absurd h (by decide)) fun _ =>
    .ite (fun _ => ?_) fun h => absurd rfl h
  exact sound_answer ((append_le (ascii_le _) (length_lu _)).trans (by decide)) (by decide)

theorem sound_cpuModelName :
    Sound Good (Answered .tmpQuery 63) (processControls .tmpQuery (ascii "cpu-model-name")) := by
  refine (sound_write (by decide)).seq fun _ => sound_world.bind fun w hw =>
    .ite (fun h => absurd h (by decide)) fun _ => .ite (fun h => absurd h (by decide)) fun _ =>
    .ite (fun h => absurd h (by decide)) fun _ => .ite (fun _ => ?_) fun h => absurd rfl h
  exact sound_answer ((append_le (ascii_le _) hw.name).trans (by decide)) (by decide)

/-- A content that is too short for a hash, with a name of at most 4 characters. -/
theorem sound_infoCache (S : StdSort) (word : List UInt8) (hc : content.length ≤ 64)
    (hscan : scan (directives (ascii "info-cache %s")) (content.takeWhile (· ≠ 0)) = [.string word])
    (hword : word.length ≤ 4) :
    Sound Good (Answered .tmpQuery 149) (processCache S .tmpQuery content) := by
  have hnil : ∀ format, Sound Good (fun args => args = []) (sscanfLong content format) := fun _ =>
    .ite (fun h => absurd hc (Nat.not_le.mpr h)) fun _ => .pure rfl
  refine (sound_write (by show _ ≤ 2048; omega)).seq fun _ => sound_world.bind fun w _ =>
    (hnil _).bind fun args hargs => ?_
  subst hargs
  refine (hnil _).bind fun args hargs => ?_
  subst hargs
  refine (sound_sscanf (by omega) _).bind fun args hargs => ?_
  rw [Scanned, hscan] at hargs
  subst hargs
  refine sound_world.bind fun w _ => ?_
  have hinfo : (getCacheInfo w.judger word).length ≤ 133 := by
    have := length_getCacheInfo w.judger word
    omega
  refine (sound_sprintf (by show _ ≤ 2048; omega)).bind fun _ _ => sound_answer ?_ (by decide)
  exact (append_le (append_le (append_le (ascii_le _) hword) (ascii_le _)) hinfo).trans (by decide)

/-- One part of the answer to `query-all`: at most `k` bytes and a newline. -/
theorem sound_query {process : Buf → List UInt8 → ReplyM Claimed} {s : String} {resLen k : Nat}
    (hp : Sound Good (Answered .tmpQuery k) (process .tmpQuery (ascii s)))
    (hs : (ascii s).length < 2048) (hroom : resLen + k + 1 ≤ 1522) :
    Sound Good (fun n => n ≤ resLen + k + 1) (query process s resLen) := by
  refine (sound_sprintf (by show _ ≤ 2048; omega)).bind fun _ _ => hp.bind fun c hc => ?_
  obtain ⟨r, rfl, -, -, hle⟩ := hc
  refine (sound_write (by show resLen + r.len.toNat ≤ 1522; omega)).seq fun _ =>
    (sound_write (by show resLen + r.len.toNat + 1 ≤ 1522; omega)).seq fun _ => .pure ?_
  show resLen + r.len.toNat + 1 ≤ resLen + k + 1
  omega

theorem sound_processSpecial (S : StdSort) (hc : content.length ≤ 1472) :
    Sound Good (Answers .content 1522) (processSpecial S content) := by
  refine (sound_write (by show _ ≤ 1522; omega)).seq fun _ => .ite (fun _ => ?_) fun _ =>
    .pure answers_none
  refine (sound_query sound_uptime (by decide) (by omega)).bind fun n1 h1 =>
    (sound_query sound_statistics (by decide) (by omega)).bind fun n2 h2 =>
    (sound_query (sound_infoCache S (ascii "elf") (by decide) rfl (by decide)) (by decide)
      (by omega)).bind fun n3 h3 =>
    (sound_query (sound_infoCache S (ascii "data") (by decide) rfl (by decide)) (by decide)
      (by omega)).bind fun n4 h4 =>
    (sound_query sound_cpuTemp (by decide) (by omega)).bind fun n5 h5 =>
    (sound_query sound_cpuModelName (by decide) (by omega)).bind fun n6 h6 => .pure ?_
  intro r hr
  rw [← Option.some.inj (Option.some.inj hr)]
  exact ⟨rfl, Int.natCast_nonneg n6, by show (n6 : Int) ≤ (1522 : Nat); omega⟩

/-! ### All handlers -/

/-- An answer that is inside its buffer. -/
def Inside (c : Claimed) : Prop := ∀ r, c = some (some r) → 0 ≤ r.len ∧ r.len ≤ r.buf.size

theorem Answers.inside {c : Claimed} (h : Answers buf n c) (hn : n ≤ buf.size) : Inside c := by
  intro r hr
  obtain ⟨rfl, h0, hle⟩ := h r hr
  exact ⟨h0, by omega⟩

theorem sound_firstClaim {ps : List (List UInt8 → ReplyM Claimed)}
    (h : ∀ p ∈ ps, Sound Good Inside (p content)) : Sound Good Inside (firstClaim content ps) := by
  induction ps with
  | nil => exact .pure fun _ h => nomatch h
  | cons p ps ih =>
      refine (h p List.mem_cons_self).bind fun c hc => .ite (fun _ => .pure hc) fun _ => ?_
      exact ih fun q hq => h q (List.mem_cons_of_mem _ hq)

theorem sound_duckPacketHandle (S : StdSort) (hc : content.length ≤ 1472) :
    Sound Good Inside (duckPacketHandle S content) := by
  refine .ite (fun _ => fun s _ a s' h => nomatch h) fun _ => sound_firstClaim fun p hp => ?_
  simp only [List.mem_cons, List.not_mem_nil, or_false] at hp
  rcases hp with rfl | rfl | rfl | rfl | rfl
  · exact (sound_processControls (by decide) hc).weaken fun c h => h.1.inside (by decide)
  · exact (sound_processData hc).weaken fun c h => h.inside (by decide)
  · exact (sound_processJudge hc).weaken fun c h => h.inside (by decide)
  · refine (sound_processCache S (by decide) hc).weaken fun c h => h.inside ?_
    show max (content.length + 48) 149 ≤ 1522
    omega
  · exact (sound_processSpecial S hc).weaken fun c h => h.inside (by decide)

/-- Every write of every handler is inside its buffer, and so is the answer, for every content of a
datagram and every state of the judge. -/
theorem answers_fit (S S' : StdSort) (w : World) {last : Option Last}
    (hreach : Reachable S' w.timer w.judger last) (hname : w.cpuModelName.length ≤ 48)
    (hclock : ∀ clkThread clkRefTsc tscMHz, (w.clockMHz clkThread clkRefTsc tscMHz).length ≤ 315)
    (content : List UInt8) (hlen : content.length ≤ 1472) (claimed : Claimed) (s' : State)
    (h : (duckPacketHandle S content).run ⟨w, []⟩ = some (claimed, s')) :
    (∀ x ∈ s'.writes, x.off + x.len ≤ x.buf.size) ∧
    ∀ r, claimed = some (some r) → 0 ≤ r.len ∧ r.len ≤ r.buf.size :=
  have hgood : Good ⟨w, []⟩ := ⟨⟨hname, hclock, hreach.knownError⟩, fun _ h => nomatch h⟩
  have ⟨hg, hin⟩ := sound_duckPacketHandle S hlen ⟨w, []⟩ hgood claimed s' h
  ⟨hg.fits, hin⟩

/-- A machine that was just started is asked for its uptime. -/
theorem answers_fit_uptime : ∃ (w : World) (s' : State),
    (duckPacketHandle StdSort.insertion (ascii "uptime")).run ⟨w, []⟩
      = some (some (some ⟨.content, 8⟩), s') ∧
    ∀ x ∈ s'.writes, x.off + x.len ≤ x.buf.size := by
  obtain ⟨s, hi, -⟩ := init_fiveGiB
  have hreach : Reachable StdSort.insertion unitTimer s none := Run.init fiveGiB_booted hi
  set w : World := ⟨s, unitTimer, fun _ => idle, 0, 0, 0, 0, [], 0, 0, ⟨0, 0⟩, 0, fun _ _ _ => []⟩
  have h : (duckPacketHandle StdSort.insertion (ascii "uptime")).run ⟨w, []⟩
      = some (some (some ⟨.content, 8⟩), ⟨w, [⟨.content, 6, 1⟩, ⟨.content, 0, 9⟩]⟩) := rfl
  exact ⟨w, _, h, (answers_fit StdSort.insertion StdSort.insertion w hreach (Nat.zero_le 48)
    (fun _ _ _ => Nat.zero_le 315) (ascii "uptime") (by decide) _ _ h).1⟩

end DuckReply

end JudgeDuck
