import Mathlib.Data.List.Basic

/-! Percent-encoded text. An escape stands for an octet, and the octets of a run of escapes
are read as UTF-8; every other character stands for itself. -/

namespace MovieReservation.Lib.Uri

def hexDigit (c : Char) : Option ℕ :=
  if '0' ≤ c ∧ c ≤ '9' then some (c.toNat - '0'.toNat)
  else if 'a' ≤ c ∧ c ≤ 'f' then some (c.toNat - 'a'.toNat + 10)
  else if 'A' ≤ c ∧ c ≤ 'F' then some (c.toNat - 'A'.toNat + 10)
  else none

/-- The octet of an escape. -/
def octet (high low : Char) : Option UInt8 := do
  let h ← hexDigit high
  let l ← hexDigit low
  return UInt8.ofNat (16 * h + l)

def ofOctets (octets : List UInt8) : Option (List Char) :=
  (String.fromUTF8? ⟨octets.toArray⟩).map String.toList

/-- `run` holds the octets of the escapes just read. -/
def decodeRun (run : List UInt8) : List Char → Option (List Char)
  | [] => ofOctets run
  | '%' :: high :: low :: cs => do
    let b ← octet high low
    decodeRun (run ++ [b]) cs
  | '%' :: _ => none
  | c :: cs => do
    let decoded ← ofOctets run
    let rest ← decodeRun [] cs
    return decoded ++ c :: rest

inductive UriError where
  | malformed
  deriving DecidableEq

def decodeURIComponent (s : String) : Except UriError String :=
  match decodeRun [] s.toList with
  | none => .error .malformed
  | some cs => .ok (String.ofList cs)

/-! ### What is decoded -/

/-- The escapes of the octets. -/
inductive Escapes : List UInt8 → List Char → Prop
  | nil : Escapes [] []
  | cons {high low : Char} {b : UInt8} {octets : List UInt8} {cs : List Char} :
    octet high low = some b → Escapes octets cs →
      Escapes (b :: octets) ('%' :: high :: low :: cs)

/-- The text that percent-encoded text stands for: a character other than `%` for itself,
and the escapes of the octets of a character for this character. -/
inductive Decodes : List Char → List Char → Prop
  | nil : Decodes [] []
  | plain {c : Char} {cs t : List Char} : c ≠ '%' → Decodes cs t → Decodes (c :: cs) (c :: t)
  | escaped {c : Char} {esc cs t : List Char} : Escapes (String.utf8EncodeChar c) esc →
    Decodes cs t → Decodes (esc ++ cs) (c :: t)

def WellFormed (s : String) : Prop := ∃ t, Decodes s.toList t

theorem ofOctets_encoded (t : List Char) : ofOctets (t.flatMap String.utf8EncodeChar) = some t := by
  have hbytes : (⟨(t.flatMap String.utf8EncodeChar).toArray⟩ : ByteArray) = t.utf8Encode :=
    ByteArray.ext (by simp [List.utf8Encode])
  have hvalid : t.utf8Encode.IsValidUTF8 := ⟨t, rfl⟩
  have hstring : String.fromUTF8 t.utf8Encode hvalid = String.ofList t := by
    rw [← String.toByteArray_inj, String.toByteArray_ofList]
    rfl
  rw [ofOctets, hbytes, String.fromUTF8?, dif_pos hvalid, Option.map_some, hstring,
    String.toList_ofList]

theorem ofOctets_eq_some {octets : List UInt8} {t : List Char} :
    ofOctets octets = some t ↔ octets = t.flatMap String.utf8EncodeChar := by
  constructor
  · intro h
    obtain ⟨m, hm⟩ : ∃ m : List Char, octets = m.flatMap String.utf8EncodeChar := by
      rw [ofOctets, String.fromUTF8?] at h
      split_ifs at h with hvalid
      · obtain ⟨m, hm⟩ := hvalid
        exact ⟨m, by simpa [List.utf8Encode] using congrArg (fun b => b.data.toList) hm⟩
      · cases h
    rw [hm, ofOctets_encoded] at h
    rw [hm, Option.some.inj h]
  · rintro rfl
    exact ofOctets_encoded t

theorem Escapes.append {xs ys : List UInt8} {cs ds : List Char} (h : Escapes xs cs)
    (h' : Escapes ys ds) : Escapes (xs ++ ys) (cs ++ ds) := by
  induction h with
  | nil => exact h'
  | cons hb _ ih => exact .cons hb ih

theorem Escapes.split {xs ys : List UInt8} {cs : List Char} (h : Escapes (xs ++ ys) cs) :
    ∃ es fs, cs = es ++ fs ∧ Escapes xs es ∧ Escapes ys fs := by
  induction xs generalizing cs with
  | nil => exact ⟨[], cs, rfl, .nil, h⟩
  | cons x xs ih =>
    cases h with
    | cons hb hrest =>
      obtain ⟨es, fs, rfl, hes, hfs⟩ := ih hrest
      exact ⟨_, fs, rfl, .cons hb hes, hfs⟩

theorem Decodes.append {cs ds t u : List Char} (h : Decodes cs t) (h' : Decodes ds u) :
    Decodes (cs ++ ds) (t ++ u) := by
  induction h with
  | nil => exact h'
  | plain hc _ ih => exact .plain hc ih
  | escaped hesc _ ih =>
    rw [List.append_assoc]
    exact .escaped hesc ih

theorem Decodes.ofEscapes {t cs : List Char}
    (h : Escapes (t.flatMap String.utf8EncodeChar) cs) : Decodes cs t := by
  induction t generalizing cs with
  | nil =>
    cases h
    exact .nil
  | cons c t ih =>
    obtain ⟨es, fs, rfl, hes, hfs⟩ := h.split
    exact .escaped hes (ih hfs)

/-- `esc` is what was read of the run. -/
theorem decodeRun_sound {run : List UInt8} {cs esc t : List Char} (hesc : Escapes run esc)
    (h : decodeRun run cs = some t) : Decodes (esc ++ cs) t := by
  induction run, cs using decodeRun.induct generalizing esc t with
  | case1 run =>
    rw [decodeRun, ofOctets_eq_some] at h
    subst h
    rw [List.append_nil]
    exact .ofEscapes hesc
  | case2 run high low cs ih =>
    rw [decodeRun] at h
    obtain ⟨b, hb, h⟩ := Option.bind_eq_some_iff.mp h
    have hread := ih b (hesc.append (.cons hb .nil)) h
    rwa [List.append_assoc] at hread
  | case3 run cs hcs =>
    rw [decodeRun] at h
    · cases h
    · exact hcs
  | case4 run c cs hc hc' ih =>
    rw [decodeRun] at h
    · obtain ⟨decoded, hdecoded, h⟩ := Option.bind_eq_some_iff.mp h
      obtain ⟨rest, hrest, h⟩ := Option.bind_eq_some_iff.mp h
      cases h
      rw [ofOctets_eq_some] at hdecoded
      subst hdecoded
      exact (Decodes.ofEscapes hesc).append (.plain hc' (ih .nil hrest))
    · exact hc
    · exact hc'

theorem decodeRun_escapes {octets run : List UInt8} {esc cs : List Char}
    (h : Escapes octets esc) : decodeRun run (esc ++ cs) = decodeRun (run ++ octets) cs := by
  induction h generalizing run with
  | nil => rw [List.append_nil, List.nil_append]
  | cons hb _ ih =>
    simp only [List.cons_append]
    rw [decodeRun, hb]
    simp only [Option.bind_eq_bind, Option.bind_some, ih, List.append_assoc, List.singleton_append]

theorem decodeRun_complete {run : List UInt8} {cs t u : List Char} (h : Decodes cs t)
    (hrun : ofOctets run = some u) : decodeRun run cs = some (u ++ t) := by
  induction h generalizing run u with
  | nil => rw [decodeRun, hrun, List.append_nil]
  | @plain c cs t hc _ ih =>
    have hrest : decodeRun [] cs = some t := ih (ofOctets_encoded [])
    rw [decodeRun, hrun, hrest]
    · rfl
    · intro high low cs' he _
      exact hc he
    · exact fun he => hc he
  | @escaped c esc cs t hesc _ ih =>
    have hnext : ofOctets (run ++ String.utf8EncodeChar c) = some (u ++ [c]) := by
      rw [ofOctets_eq_some] at hrun ⊢
      simp [hrun]
    rw [decodeRun_escapes hesc, ih hnext, List.append_assoc, List.singleton_append]

theorem decodeURIComponent_eq_ok {s t : String} :
    decodeURIComponent s = .ok t ↔ Decodes s.toList t.toList := by
  have hrun : ∀ cs, decodeRun [] s.toList = some cs ↔ Decodes s.toList cs := fun cs =>
    ⟨decodeRun_sound .nil, fun h => decodeRun_complete h (ofOctets_encoded [])⟩
  rw [← hrun, decodeURIComponent]
  cases decodeRun [] s.toList with
  | none => simp
  | some cs => simp [← String.toList_inj]

/-- Decoding fails exactly for text that stands for nothing. -/
theorem decodeURIComponent_isOk_iff {s : String} :
    (∃ t, decodeURIComponent s = .ok t) ↔ WellFormed s := by
  constructor
  · rintro ⟨t, h⟩
    exact ⟨t.toList, decodeURIComponent_eq_ok.mp h⟩
  · rintro ⟨t, h⟩
    exact ⟨String.ofList t, decodeURIComponent_eq_ok.mpr (by rwa [String.toList_ofList])⟩

theorem Decodes.eq_nil {cs : List Char} (h : Decodes cs []) : cs = [] := by
  cases h
  rfl

theorem Decodes.self {cs : List Char} (h : '%' ∉ cs) : Decodes cs cs := by
  induction cs with
  | nil => exact .nil
  | cons c cs ih =>
    obtain ⟨hc, hcs⟩ := not_or.mp (mt List.mem_cons.mpr h)
    exact .plain (Ne.symm hc) (ih hcs)

/-- Text without escapes stands for itself. -/
theorem decodeURIComponent_of_notMem {s : String} (h : '%' ∉ s.toList) :
    decodeURIComponent s = .ok s := decodeURIComponent_eq_ok.mpr (.self h)

example : decodeURIComponent "caf%C3%A9" = .ok "café" := by decide +kernel

example : decodeURIComponent "100%" = .error .malformed := by decide +kernel

end MovieReservation.Lib.Uri
