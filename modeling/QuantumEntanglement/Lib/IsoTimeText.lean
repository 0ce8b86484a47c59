import QuantumEntanglement.Lib.IsoTime

/-
  Texts both grammars read — `fromisoformat` against the SQLite form

  A text of the SQLite form is a date text, a separator, the hour and minute,
  an optional seconds text and a zone (`Shape`). `sqliteForm` accepts these
  (`sqliteForm_shape`), and `fromisoformat` reads one of them, if at all, as
  the same reading (`fromisoformat_shape`). The text Python sees is the one
  with every `Z` replaced by `+00:00`; in a text of the form only the zone can
  hold a `Z` (`replace_shape`).
-/

namespace IsoTime

open Calendar PyJson PyText

/-! ## Parts of a text -/

theorem takeWhile_isDigit {s : List Char} {c : Char} (h : c ∈ s.takeWhile Char.isDigit) :
    c.isDigit = true := by
  induction s with
  | nil => simp at h
  | cons d t ih =>
    rw [List.takeWhile_cons] at h
    split at h
    next hd =>
      rcases List.mem_cons.mp h with rfl | h
      · exact hd
      · exact ih h
    · simp at h

/-- Two digits and their value. -/
def IsPair (p : List Char) (n : Nat) : Prop :=
  ∃ a b, p = [a, b] ∧ a.isDigit = true ∧ b.isDigit = true ∧ n = 10 * digitVal a + digitVal b

theorem twoDigits_pair {p r : List Char} {n : Nat} (h : IsPair p n) :
    twoDigits (p ++ r) = some (n, r) := by
  obtain ⟨a, b, rfl, ha, hb, rfl⟩ := h
  simp [twoDigits, ha, hb]

theorem twoDigits_some {s r : List Char} {n : Nat} (h : twoDigits s = some (n, r)) :
    ∃ p, IsPair p n ∧ s = p ++ r := by
  unfold twoDigits at h
  split at h
  next a b rest =>
    split at h
    next hd =>
      simp only [Bool.and_eq_true] at hd
      simp only [Option.some.injEq, Prod.mk.injEq] at h
      obtain ⟨rfl, rfl⟩ := h
      exact ⟨[a, b], ⟨a, b, rfl, hd.1, hd.2, rfl⟩, rfl⟩
    · simp at h
  · simp at h

/-- A date as `YYYY-MM-DD`. -/
def IsDate (p : List Char) (d : Date) : Prop :=
  ∃ y₁ y₂ m e hi lo, p = y₁ ++ (y₂ ++ '-' :: (m ++ '-' :: e)) ∧ IsPair y₁ hi ∧ IsPair y₂ lo ∧
    d.year = 100 * hi + lo ∧ IsPair m d.month ∧ IsPair e d.day

theorem scanDate_date {p r : List Char} {d : Date} (h : IsDate p d) :
    scanDate (p ++ r) = some (d, r) := by
  obtain ⟨y₁, y₂, m, e, hi, lo, rfl, h₁, h₂, hy, hm, he⟩ := h
  obtain ⟨year, month, day⟩ := d
  simp only at hy hm he
  subst hy
  simp [scanDate, fourDigits, twoDigits_pair h₁, twoDigits_pair h₂, twoDigits_pair hm,
    twoDigits_pair he, dropChar]

theorem dropChar_some {ok : Char → Bool} {s r : List Char} (h : dropChar ok s = some r) :
    ∃ c, ok c = true ∧ s = c :: r := by
  unfold dropChar at h
  split at h
  next c rest =>
    split at h
    next hok =>
      simp only [Option.some.injEq] at h
      exact ⟨c, hok, by rw [h]⟩
    · simp at h
  · simp at h

/-- The seconds text: absent, whole seconds, or seconds and a fraction. -/
def IsSeconds (S : List Char) (s : Nat) (f : List Char) : Prop :=
  (S = [] ∧ s = 0 ∧ f = []) ∨
    ∃ p, IsPair p s ∧ ((S = ':' :: p ∧ f = []) ∨
      (S = ':' :: (p ++ '.' :: f) ∧ f ≠ [] ∧ ∀ c ∈ f, c.isDigit = true))

/-- An offset `±HH:MM`, in microseconds. -/
def IsOffset (z : List Char) (o : Int) : Prop :=
  ∃ c p q h m, z = c :: (p ++ ':' :: q) ∧ (c = '+' ∨ c = '-') ∧ IsPair p h ∧ IsPair q m ∧ h < 24 ∧
    m < 60 ∧ o = (if c = '-' then -(1000000 * (3600 * (h : Int) + 60 * m))
      else 1000000 * (3600 * (h : Int) + 60 * m))

/-- The zone text: `Z` or an offset. -/
def IsZone (z : List Char) (o : Int) : Prop := (z = ['Z'] ∧ o = 0) ∨ IsOffset z o

/-- A text of the SQLite form, up to its zone. -/
structure Shape (body : List Char) (r : Reading) : Prop where
  valid : r.Valid
  parts : ∃ pd sep ph pm S, body = pd ++ sep :: (ph ++ ':' :: (pm ++ S)) ∧ IsDate pd r.date ∧
    (sep = 'T' ∨ sep = ' ') ∧ IsPair ph r.hour ∧ IsPair pm r.minute ∧
    IsSeconds S r.second r.fraction

/-! ## The SQLite form -/

/-- A zone starts with no character a time could go on with. -/
def ZoneHead (z : List Char) : Prop := ∃ c t, z = c :: t ∧ (c = 'Z' ∨ c = '+' ∨ c = '-')

theorem IsZone.head {z : List Char} {o : Int} (h : IsZone z o) : ZoneHead z := by
  rcases h with ⟨rfl, -⟩ | ⟨c, p, q, hh, m, rfl, hc, -⟩
  · exact ⟨'Z', [], rfl, .inl rfl⟩
  · exact ⟨c, _, rfl, .inr hc⟩

theorem ZoneHead.noDigit {z : List Char} (h : ZoneHead z) : NoDigit z := by
  obtain ⟨c, t, rfl, hc⟩ := h
  intro c' t' e
  obtain ⟨rfl, -⟩ := List.cons.inj e
  rcases hc with rfl | rfl | rfl <;> decide

theorem sqliteSeconds_seconds {S z f : List Char} {s : Nat} (h : IsSeconds S s f)
    (hz : ZoneHead z) : sqliteSeconds (S ++ z) = some (s, f, z) := by
  have hnd := hz.noDigit
  obtain ⟨c, t, rfl, hc⟩ := hz
  rcases h with ⟨rfl, rfl, rfl⟩ | ⟨p, hp, ⟨rfl, rfl⟩ | ⟨rfl, hf, hd⟩⟩
  · rcases hc with rfl | rfl | rfl <;> simp [sqliteSeconds]
  · rcases hc with rfl | rfl | rfl <;> simp [sqliteSeconds, twoDigits_pair hp]
  · simp only [sqliteSeconds, List.cons_append, List.append_assoc, twoDigits_pair hp,
      takeWhile_digits hd hnd, dropWhile_digits hd hnd, hf, Option.bind_eq_bind, Option.bind_some,
      if_false]

theorem sqliteZone_zone {z : List Char} {o : Int} (h : IsZone z o) : sqliteZone z = some o := by
  rcases h with ⟨rfl, rfl⟩ | ⟨c, p, q, hh, m, rfl, hc, hp, hq, hlt, hmlt, rfl⟩
  · rfl
  · have htwo := twoDigits_pair (r := []) hq
    rw [List.append_nil] at htwo
    rcases hc with rfl | rfl <;>
      simp [sqliteZone, dropChar, twoDigits_pair hp, htwo, hlt, hmlt]

theorem sqliteForm_shape {body z : List Char} {r : Reading} {o : Int} (h : Shape body r)
    (hz : IsZone z o) (ho : r.offset = some o) : sqliteForm (body ++ z) = some r := by
  obtain ⟨hv, pd, sep, ph, pm, S, rfl, hpd, hsep, hph, hpm, hS⟩ := h
  have hval : (⟨r.date, r.hour, r.minute, r.second, r.fraction, some o⟩ : Reading) = r := by
    rw [← ho]
  have hsep' : (sep == 'T' || sep == ' ') = true := by simpa using hsep
  simp only [sqliteForm, List.append_assoc, List.cons_append, scanDate_date hpd,
    Option.bind_eq_bind, Option.bind_some, dropChar, hsep', if_true, beq_self_eq_true,
    twoDigits_pair hph, twoDigits_pair hpm, sqliteSeconds_seconds hS hz.head,
    sqliteZone_zone hz, hval, hv]

/-! ## The same texts under `fromisoformat` -/

/-- The fractions the grammar of a version allows. -/
def FractionOk (v : PyVersion) (f : List Char) : Prop :=
  v = .py39 → f = [] ∨ f.length = 3 ∨ f.length = 6

instance (v : PyVersion) (f : List Char) : Decidable (FractionOk v f) :=
  inferInstanceAs (Decidable (_ → _))

theorem takeWhile_all {f : List Char} (h : ∀ c ∈ f, c.isDigit = true) :
    f.takeWhile Char.isDigit = f ∧ f.dropWhile Char.isDigit = [] := by
  have hr : NoDigit [] := fun c t e => by simp at e
  have h₁ := takeWhile_digits h hr
  have h₂ := dropWhile_digits h hr
  rw [List.append_nil] at h₁ h₂
  exact ⟨h₁, h₂⟩

theorem scanFraction_digits {v : PyVersion} {h m s : Nat} {f : List Char} (hf : f ≠ [])
    (hd : ∀ c ∈ f, c.isDigit = true) :
    scanFraction v h m s f = if FractionOk v f then some ⟨h, m, s, f, false⟩ else none := by
  cases v with
  | py39 =>
    have hall : f.all Char.isDigit = true := List.all_eq_true.mpr hd
    simp [scanFraction, FractionOk, hall, hf]
  | py311 =>
    have hall : (f.take 6).all Char.isDigit = true :=
      List.all_eq_true.mpr (fun c hc => hd c (List.mem_of_mem_take hc))
    simp [scanFraction, FractionOk, hall, takeWhile_all hd]

theorem afterComponent_nil {v : PyVersion} {colons : Bool} :
    afterComponent v colons [] = some (.stop false) := rfl

theorem afterComponent_colon {v : PyVersion} {r : List Char} (hr : r ≠ []) :
    afterComponent v true (':' :: r) = some (.next r) := by
  obtain ⟨a, t, rfl⟩ := List.exists_cons_of_ne_nil hr
  cases v <;> simp [afterComponent]

theorem afterComponent_point {v : PyVersion} {r : List Char} (hr : r ≠ []) :
    afterComponent v true ('.' :: r) = some (.fraction r) := by
  obtain ⟨a, t, rfl⟩ := List.exists_cons_of_ne_nil hr
  cases v <;> simp [afterComponent]

theorem IsPair.ne_nil {p : List Char} {n : Nat} (h : IsPair p n) : p ≠ [] := by
  obtain ⟨a, b, rfl, -⟩ := h
  simp

theorem scanTime_seconds {v : PyVersion} {ph pm S f : List Char} {h m s : Nat}
    (hph : IsPair ph h) (hpm : IsPair pm m) (hS : IsSeconds S s f) :
    scanTime v (ph ++ ':' :: (pm ++ S)) =
      if FractionOk v f then some ⟨h, m, s, f, false⟩ else none := by
  have hne : pm ++ S ≠ [] := by simp [hpm.ne_nil]
  have hok : FractionOk v [] := fun _ => .inl rfl
  rcases hS with ⟨rfl, rfl, rfl⟩ | ⟨p, hp, ⟨rfl, rfl⟩ | ⟨rfl, hf, hd⟩⟩
  · rw [List.append_nil] at hne ⊢
    have htwo := twoDigits_pair (r := []) hpm
    rw [List.append_nil] at htwo
    simp [scanTime, twoDigits_pair hph, afterComponent_colon hne, htwo, afterComponent_nil, hok]
  · have htwo := twoDigits_pair (r := []) hp
    rw [List.append_nil] at htwo
    simp [scanTime, twoDigits_pair hph, afterComponent_colon hne, twoDigits_pair hpm,
      afterComponent_colon hp.ne_nil, htwo, afterComponent_nil, hok]
  · have hne' : p ++ '.' :: f ≠ [] := by simp
    simp [scanTime, twoDigits_pair hph, afterComponent_colon hne, twoDigits_pair hpm,
      afterComponent_colon hne', twoDigits_pair hp, afterComponent_point hf,
      scanFraction_digits hf hd]

theorem zoneOffset_offset {v : PyVersion} {z : List Char} {o : Int} (h : IsOffset z o) :
    zoneOffset v z = some o := by
  obtain ⟨c, p, q, hh, m, rfl, hc, hp, hq, hlt, hmlt, rfl⟩ := h
  have hZ : c ≠ 'Z' := by rcases hc with rfl | rfl <;> decide
  have hlen : (p ++ ':' :: q).length = 5 := by
    obtain ⟨a, b, rfl, -⟩ := hp
    obtain ⟨d, e, rfl, -⟩ := hq
    rfl
  have hscan := scanTime_seconds (v := v) (S := []) (s := 0) (f := []) hp hq (.inl ⟨rfl, rfl, rfl⟩)
  have hok : FractionOk v [] := fun _ => .inl rfl
  rw [List.append_nil, if_pos hok] at hscan
  have hmicros : fractionMicros [] = 0 := by decide
  simp only [zoneOffset, if_neg hZ, hlen, true_or, not_true_eq_false, and_false, if_false, hscan,
    hmicros, Bool.false_eq_true]
  split
  next hs =>
    have : hh = 0 ∧ m = 0 := by omega
    obtain ⟨rfl, rfl⟩ := this
    split <;> rfl
  next hs =>
    rw [if_neg (by simp only [dayMicros]; omega)]
    split
    · simp only [Option.some.injEq]; omega
    · simp only [Option.some.injEq]; omega

/-- The characters of a time body. -/
def TimeChar (c : Char) : Prop := c.isDigit = true ∨ c = ':' ∨ c = '.'

theorem TimeChar.notZone {v : PyVersion} {c : Char} (h : TimeChar c) : isZoneStart v c = false := by
  rcases h with h | rfl | rfl
  · simp only [isZoneStart, Bool.or_eq_false_iff, Bool.and_eq_false_iff, decide_eq_false_iff_not]
    refine ⟨⟨?_, ?_⟩, .inl ?_⟩ <;> rintro rfl <;> simp at h
  · cases v <;> decide
  · cases v <;> decide

theorem IsPair.timeChar {p : List Char} {n : Nat} (h : IsPair p n) : ∀ c ∈ p, TimeChar c := by
  obtain ⟨a, b, rfl, ha, hb, -⟩ := h
  intro c hc
  simp only [List.mem_cons, List.not_mem_nil, or_false] at hc
  rcases hc with rfl | rfl
  · exact .inl ha
  · exact .inl hb

theorem IsSeconds.timeChar {S f : List Char} {s : Nat} (h : IsSeconds S s f) :
    ∀ c ∈ S, TimeChar c := by
  intro c hc
  rcases h with ⟨rfl, -⟩ | ⟨p, hp, ⟨rfl, -⟩ | ⟨rfl, -, hd⟩⟩
  · simp at hc
  · rcases List.mem_cons.mp hc with rfl | hc
    · exact .inr (.inl rfl)
    · exact hp.timeChar c hc
  · rcases List.mem_cons.mp hc with rfl | hc
    · exact .inr (.inl rfl)
    · rcases List.mem_append.mp hc with hc | hc
      · exact hp.timeChar c hc
      · rcases List.mem_cons.mp hc with rfl | hc
        · exact .inr (.inr rfl)
        · exact .inl (hd c hc)

theorem takeWhile_zone {v : PyVersion} {b z : List Char} {o : Int} (hb : ∀ c ∈ b, TimeChar c)
    (hz : IsOffset z o) :
    (b ++ z).takeWhile (fun c => !isZoneStart v c) = b ∧
      (b ++ z).dropWhile (fun c => !isZoneStart v c) = z := by
  obtain ⟨c, p, q, hh, m, rfl, hc, -⟩ := hz
  have hb' : ∀ a ∈ b, (!isZoneStart v a) = true := fun a ha => by
    rw [(hb a ha).notZone]; rfl
  have hc' : isZoneStart v c = true := by
    rcases hc with rfl | rfl <;> simp [isZoneStart]
  rw [List.takeWhile_append_of_pos hb', List.dropWhile_append_of_pos hb']
  simp [hc']

theorem IsDate.length {p : List Char} {d : Date} (h : IsDate p d) : p.length = 10 := by
  obtain ⟨y₁, y₂, m, e, hi, lo, rfl, ⟨_, _, rfl, _⟩, ⟨_, _, rfl, _⟩, -, ⟨_, _, rfl, _⟩,
    ⟨_, _, rfl, _⟩⟩ := h
  rfl

theorem splitDate_date {v : PyVersion} {p t : List Char} {sep : Char} {d : Date}
    (h : IsDate p d) : splitDate v (p ++ sep :: t) = some (d, t) := by
  cases v with
  | py39 => simp [splitDate, scanDate_date h]
  | py311 =>
    have hlen := h.length
    have hdate : scanWideDate p = some d := by
      obtain ⟨y₁, y₂, m, e, hi, lo, rfl, h₁, h₂, hy, hm, he⟩ := h
      obtain ⟨year, month, day⟩ := d
      simp only at hy hm he
      subst hy
      have htwo := twoDigits_pair (r := []) he
      rw [List.append_nil] at htwo
      have hmonth := twoDigits_pair (r := '-' :: e) hm
      obtain ⟨a, b, rfl, ha, -⟩ := hm
      have hW : a ≠ 'W' := by rintro rfl; simp at ha
      simp only [List.cons_append, List.nil_append] at hmonth
      simp [scanWideDate, fourDigits, twoDigits_pair h₁, twoDigits_pair h₂, hmonth, htwo, hW,
        dropChar]
    have hindex : separatorIndex (p ++ sep :: t) = some 10 := by
      obtain ⟨y₁, y₂, m, e, hi, lo, rfl, ⟨_, _, rfl, _⟩, ⟨_, _, rfl, _⟩, -, ⟨a, _, rfl, ha, _⟩,
        ⟨_, _, rfl, _⟩⟩ := h
      have hW : a ≠ 'W' := by rintro rfl; simp at ha
      simp [separatorIndex, hW]
    have htake : (p ++ sep :: t).take 10 = p := by
      rw [← hlen, List.take_left']
      rfl
    have hdrop : (p ++ sep :: t).drop 11 = t := by
      rw [show 11 = p.length + 1 by omega, List.drop_append]
      simp
    have hlong : ¬(p ++ sep :: t).length < 7 := by
      simp only [List.length_append, hlen]; omega
    simp only [splitDate, if_neg hlong, hindex, Option.bind_eq_bind, Option.bind_some, htake, hdate,
      hdrop]

/-- **A text of the form is read, if at all, as its own reading.** -/
theorem fromisoformat_shape {v : PyVersion} {body z : List Char} {r : Reading} {o : Int}
    (h : Shape body r) (hz : IsOffset z o) (ho : r.offset = some o) :
    fromisoformat v (body ++ z) = if FractionOk v r.fraction then some r else none := by
  obtain ⟨hv, pd, sep, ph, pm, S, rfl, hpd, hsep, hph, hpm, hS⟩ := h
  have hbody : ∀ c ∈ ph ++ ':' :: (pm ++ S), TimeChar c := by
    intro c hc
    rcases List.mem_append.mp hc with hc | hc
    · exact hph.timeChar c hc
    · rcases List.mem_cons.mp hc with rfl | hc
      · exact .inr (.inl rfl)
      · rcases List.mem_append.mp hc with hc | hc
        · exact hpm.timeChar c hc
        · exact hS.timeChar c hc
  obtain ⟨htake, hdrop⟩ := takeWhile_zone (v := v) hbody hz
  have hzne : z ≠ [] := by
    obtain ⟨c, p, q, hh, m, rfl, -⟩ := hz
    simp
  have htext : pd ++ sep :: (ph ++ ':' :: (pm ++ S)) ++ z =
      pd ++ sep :: ((ph ++ ':' :: (pm ++ S)) ++ z) := by simp
  have hne : ph ++ ':' :: (pm ++ S) ++ z ≠ [] := by simp [hph.ne_nil]
  have hval : (⟨r.date, r.hour, r.minute, r.second, r.fraction, some o⟩ : Reading) = r := by
    rw [← ho]
  rw [htext]
  simp only [fromisoformat, splitDate_date hpd, Option.bind_eq_bind, Option.bind_some, if_neg hne,
    scanTimeAndZone, htake, hdrop, scanTime_seconds hph hpm hS]
  by_cases hf : FractionOk v r.fraction
  · simp only [if_pos hf, if_neg hzne, zoneOffset_offset hz, Option.map_some, Option.bind_some,
      hval, hv, if_true]
  · simp only [if_neg hf, Option.bind_none]

/-- A text `fromisoformat` reads starts with a digit. -/
theorem fromisoformat_head {v : PyVersion} {text : List Char} {r : Reading}
    (h : fromisoformat v text = some r) : ∃ c rest, text = c :: rest ∧ c.isDigit = true := by
  have hpair : ∀ {s t : List Char} {n : Nat}, fourDigits s = some (n, t) →
      ∃ c rest, s = c :: rest ∧ c.isDigit = true := by
    intro s t n hs
    simp only [fourDigits, Option.bind_eq_bind, Option.bind_eq_some_iff, Prod.exists] at hs
    obtain ⟨a, s', h₁, -⟩ := hs
    obtain ⟨p, ⟨x, y, rfl, hx, -⟩, rfl⟩ := twoDigits_some h₁
    exact ⟨x, y :: s', rfl, hx⟩
  simp only [fromisoformat, Option.bind_eq_bind, Option.bind_eq_some_iff, Prod.exists] at h
  obtain ⟨d, time, hsplit, -⟩ := h
  cases v with
  | py39 =>
    simp only [splitDate, Option.map_eq_some_iff, Prod.exists] at hsplit
    obtain ⟨d', t', hdate, -⟩ := hsplit
    simp only [scanDate, Option.bind_eq_bind, Option.bind_eq_some_iff, Prod.exists] at hdate
    obtain ⟨y, s', hy, -⟩ := hdate
    exact hpair hy
  | py311 =>
    simp only [splitDate] at hsplit
    split at hsplit
    · simp at hsplit
    · simp only [Option.bind_eq_bind, Option.bind_eq_some_iff] at hsplit
      obtain ⟨i, -, d', hdate, -⟩ := hsplit
      simp only [scanWideDate, Option.bind_eq_bind, Option.bind_eq_some_iff, Prod.exists] at hdate
      obtain ⟨y, s', hy, -⟩ := hdate
      obtain ⟨c, rest, htake, hc⟩ := hpair hy
      cases text with
      | nil => simp at htake
      | cons a t =>
        cases i with
        | zero => simp at htake
        | succ i =>
          rw [List.take_succ_cons] at htake
          exact ⟨a, t, rfl, by rw [(List.cons.inj htake).1]; exact hc⟩

/-! ## Replacing `Z` -/

/-- `value.replace("Z", "+00:00")`. -/
def replaceZ (text : List Char) : List Char := replaceChar 'Z' ['+', '0', '0', ':', '0', '0'] text

theorem TimeChar.ne_Z {c : Char} (h : TimeChar c) : c ≠ 'Z' := by
  rintro rfl
  rcases h with h | h | h <;> simp at h

theorem IsOffset.replace {z : List Char} {o : Int} (h : IsOffset z o) : replaceZ z = z := by
  refine replaceChar_of_notMem (fun hZ => ?_)
  obtain ⟨c, p, q, hh, m, rfl, hc, hp, hq, -⟩ := h
  rcases List.mem_cons.mp hZ with h | h
  · rcases hc with rfl | rfl <;> simp at h
  · rcases List.mem_append.mp h with h | h
    · exact (hp.timeChar _ h).ne_Z rfl
    · rcases List.mem_cons.mp h with h | h
      · simp at h
      · exact (hq.timeChar _ h).ne_Z rfl

/-- The zone Python sees. -/
theorem replace_zone {z : List Char} {o : Int} (h : IsZone z o) : IsOffset (replaceZ z) o := by
  rcases h with ⟨rfl, rfl⟩ | h
  · exact ⟨'+', ['0', '0'], ['0', '0'], 0, 0, rfl, .inl rfl, ⟨'0', '0', rfl, by decide⟩,
      ⟨'0', '0', rfl, by decide⟩, by omega, by omega, by decide⟩
  · rwa [h.replace]

theorem replace_body {body : List Char} {r : Reading} (h : Shape body r) :
    replaceZ body = body := by
  refine replaceChar_of_notMem (fun hZ => ?_)
  obtain ⟨-, pd, sep, ph, pm, S, rfl, hpd, hsep, hph, hpm, hS⟩ := h
  rcases List.mem_append.mp hZ with h | h
  · obtain ⟨y₁, y₂, m, e, hi, lo, rfl, h₁, h₂, -, hm, he⟩ := hpd
    simp only [List.mem_append, List.mem_cons] at h
    rcases h with h | h | h | h | h | h
    · exact (h₁.timeChar _ h).ne_Z rfl
    · exact (h₂.timeChar _ h).ne_Z rfl
    · simp at h
    · exact (hm.timeChar _ h).ne_Z rfl
    · simp at h
    · exact (he.timeChar _ h).ne_Z rfl
  · simp only [List.mem_append, List.mem_cons] at h
    rcases h with h | h | h | h | h
    · rcases hsep with rfl | rfl <;> simp at h
    · exact (hph.timeChar _ h).ne_Z rfl
    · simp at h
    · exact (hpm.timeChar _ h).ne_Z rfl
    · exact (hS.timeChar _ h).ne_Z rfl

theorem replace_shape {body z : List Char} {r : Reading} (h : Shape body r) :
    replaceZ (body ++ z) = body ++ replaceZ z := by
  have hb := replace_body h
  simp only [replaceZ, replaceChar, List.flatMap_append] at hb ⊢
  rw [hb]

/-! ## The text of a moment -/

theorem digitOf_isDigit (n : Nat) : (digitOf n).isDigit = true := by
  have h : ∀ k < 10, (Nat.digitChar k).isDigit = true := by decide
  exact h (n % 10) (Nat.mod_lt n (by omega))

theorem digitVal_digitOf (n : Nat) : digitVal (digitOf n) = n % 10 := by
  have h : ∀ k < 10, digitVal (Nat.digitChar k) = k := by decide
  exact h (n % 10) (Nat.mod_lt n (by omega))

theorem isPair_pad2 {n : Nat} (h : n < 100) : IsPair (pad2 n) n := by
  refine ⟨_, _, rfl, digitOf_isDigit _, digitOf_isDigit _, ?_⟩
  rw [digitVal_digitOf, digitVal_digitOf]
  omega

theorem isDate_pad {d : Date} (hy : d.year < 10000) (hm : d.month < 100) (he : d.day < 100) :
    IsDate (pad4 d.year ++ '-' :: (pad2 d.month ++ '-' :: pad2 d.day)) d := by
  refine ⟨pad2 (d.year / 100), pad2 (d.year % 100), pad2 d.month, pad2 d.day, _, _, ?_,
    isPair_pad2 (by omega), isPair_pad2 (by omega), by omega, isPair_pad2 hm, isPair_pad2 he⟩
  simp only [pad4, List.append_assoc]

theorem pad6_isDigit {n : Nat} {c : Char} (h : c ∈ pad6 n) : c.isDigit = true := by
  simp only [pad6, pad2, List.cons_append, List.nil_append, List.mem_cons, List.not_mem_nil,
    or_false] at h
  rcases h with rfl | rfl | rfl | rfl | rfl | rfl <;> exact digitOf_isDigit _

theorem ofDigits_pad6 {n : Nat} (h : n < 1000000) : ofDigits (pad6 n) = n := by
  have hval : ∀ k : Nat, (digitOf k).toNat - '0'.toNat = k % 10 := digitVal_digitOf
  simp only [ofDigits, pad6, pad2, List.cons_append, List.nil_append, Nat.ofDigitChars_cons,
    Nat.ofDigitChars_nil, hval]
  omega

/-- The reading of a UTC moment. -/
def momentReading (m : Int) : Reading :=
  let micros := (m % dayMicros).toNat
  let seconds := micros / 1000000
  let fraction := micros % 1000000
  ⟨dateOfDay (m / dayMicros).toNat, seconds / 3600, seconds / 60 % 60, seconds % 60,
    if fraction = 0 then [] else pad6 fraction, some 0⟩

theorem day_of_moment {m : Int} (h : InRange m) :
    1 ≤ (m / dayMicros).toNat ∧ (m / dayMicros).toNat ≤ maxDay ∧
      ((m / dayMicros).toNat : Int) = m / dayMicros := by
  obtain ⟨hlo, hhi⟩ := h
  simp only [dayMicros, maxDay] at *
  omega

/-- The text of a moment is of the form, with zone `Z`. -/
theorem isoformat_shape {m : Int} (h : InRange m) :
    ∃ body, isoformat m = body ++ ['Z'] ∧ Shape body (momentReading m) := by
  obtain ⟨hd, hd', -⟩ := day_of_moment h
  obtain ⟨⟨hy, hm₁, hm₂, he₁, he₂⟩, -⟩ := dayNumber_dateOfDay hd
  have hyear := dateOfDay_year hd hd'
  have hday : daysInMonth (dateOfDay (m / dayMicros).toNat).year
      (dateOfDay (m / dayMicros).toNat).month ≤ 31 := daysInMonth_le _ hm₂
  have hmicros : (m % dayMicros).toNat < 86400000000 := by
    simp only [dayMicros]; omega
  refine ⟨_, rfl, ⟨⟨⟨hy, hm₁, hm₂, he₁, he₂⟩, hyear, ?_, ?_, ?_⟩, ?_⟩⟩
  · simp only [momentReading]; omega
  · simp only [momentReading]; omega
  · simp only [momentReading]; omega
  · have hdate := isDate_pad (d := dateOfDay (m / dayMicros).toNat) (by omega) (by omega) (by omega)
    refine ⟨_, 'T', pad2 (momentReading m).hour, pad2 (momentReading m).minute,
      ':' :: (pad2 (momentReading m).second ++
        (if (m % dayMicros).toNat % 1000000 = 0 then []
          else '.' :: pad6 ((m % dayMicros).toNat % 1000000))), ?_, hdate, .inl rfl, isPair_pad2 ?_,
      isPair_pad2 ?_, .inr ⟨_, isPair_pad2 (n := (momentReading m).second) ?_, ?_⟩⟩
    · simp [momentReading]
    · simp only [momentReading]; omega
    · simp only [momentReading]; omega
    · simp only [momentReading]; omega
    · simp only [momentReading]
      split
      · exact .inl ⟨by simp, rfl⟩
      · exact .inr ⟨rfl, by simp [pad6, pad2], fun c hc => pad6_isDigit hc⟩

/-- A moment is the moment of its own reading. -/
theorem momentReading_wholeMicros {m : Int} (h : InRange m) :
    (momentReading m).wholeMicros + ((m % dayMicros).toNat % 1000000 : Nat) = m := by
  obtain ⟨hd, -, hcast⟩ := day_of_moment h
  simp only [Reading.wholeMicros, momentReading, (dayNumber_dateOfDay hd).2, hcast]
  simp only [dayMicros]
  omega

theorem momentReading_moment {m : Int} (h : InRange m) : (momentReading m).moment 0 = m := by
  have hw := momentReading_wholeMicros h
  have hf : fractionMicros (momentReading m).fraction = (m % dayMicros).toNat % 1000000 := by
    simp only [momentReading]
    split
    next hz => rw [hz]; decide
    next hz =>
      have hlen : (pad6 ((m % dayMicros).toNat % 1000000)).length = 6 := by simp [pad6, pad2]
      simp only [fractionMicros, hlen, Nat.sub_self, List.replicate_zero, List.append_nil]
      rw [List.take_of_length_le (by omega), ofDigits_pad6 (Nat.mod_lt _ (by omega))]
  simp only [Reading.moment, hf]
  omega

theorem momentReading_instant {m : Int} (h : InRange m) :
    (momentReading m).instant 0 = (m : Rat) := by
  have hw := momentReading_wholeMicros h
  have hf : (ofDigits (momentReading m).fraction : Rat) * 1000000 /
      (10 ^ (momentReading m).fraction.length : Nat) =
        (((m % dayMicros).toNat % 1000000 : Nat) : Rat) := by
    simp only [momentReading]
    split
    next hz => rw [hz]; simp [ofDigits]
    next hz =>
      have hlen : (pad6 ((m % dayMicros).toNat % 1000000)).length = 6 := by simp [pad6, pad2]
      rw [hlen, ofDigits_pad6 (Nat.mod_lt _ (by omega))]
      norm_num
  rw [Reading.instant, hf, Int.sub_zero, ← Int.cast_natCast (R := Rat), ← Int.cast_add, hw]

/-- **`julianday` of a moment's text is the moment, as SQLite keeps it.** -/
theorem julianday_isoformat [SqliteTime] {m : Int} (h : InRange m) :
    julianday (String.ofList (isoformat m)) = some (SqliteTime.keep m) := by
  obtain ⟨body, htext, hshape⟩ := isoformat_shape h
  have hform := sqliteForm_shape hshape (.inl ⟨rfl, rfl⟩) (rfl : (momentReading m).offset = some 0)
  rw [← htext] at hform
  simp only [julianday, String.toList_ofList, hform, momentReading_instant h,
    show (momentReading m).offset = some 0 from rfl, Option.map_some]

/-- **Python reads a moment's text as the moment.** -/
theorem fromisoformat_isoformat {v : PyVersion} {m : Int} (h : InRange m) :
    fromisoformat v (replaceZ (isoformat m)) = some (momentReading m) := by
  obtain ⟨body, htext, hshape⟩ := isoformat_shape h
  rw [htext, replace_shape hshape,
    fromisoformat_shape hshape (replace_zone (.inl ⟨rfl, rfl⟩)) rfl, if_pos]
  intro _
  simp only [momentReading]
  split
  · exact .inl rfl
  · exact .inr (.inr (by simp [pad6, pad2]))

end IsoTime
