import MailOutline.Proofs.Grouping

/-!
# Parameters and the additions that built them

Parameters answer every look-up from the log of the additions that built them, in whatever way these
were made. Only the order inside each key counts.

* `History`: parameters with the log of all additions since they were empty.
* `firstSpellings`: the first spelling of each key of a log (`firstSpellings_concat`).
* `Records`: what parameters hold after a log. An addition goes to one of two places
  (`addTo_cases`) and keeps it (`Records.add`), so it holds after every history (`History.records`).
* `Records.size_eq`: the number of keys depends on the values under each key alone.
* `History.answers`: all look-ups, the entries, and a log in another order.
-/

namespace MailOutline.Params

open Text (sameLetters sameLetters_comm)

variable {params other : Params} {log reordered : List (String × String)} {key value : String}

/-- `History params log`: the parameters come from no parameters by the additions of the log, one by
one, from a list of pairs, or from the fields that alternate keys and values. -/
inductive History : Params → (log : List (String × String)) → Prop
  /-- Nothing was added. -/
  | empty : History empty []
  /-- One more addition. -/
  | add {params : Params} {log : List (String × String)} (h : History params log)
      (key value : String) : History (params.add key value) (log ++ [(key, value)])
  /-- All pairs of a list. -/
  | pairs (log : List (String × String)) : History (ofPairs log) log
  /-- The pairs of fields. -/
  | fields (items : List Field) : History (ofFields items).value (pairsOf items)

/-! ## Keys -/

/-- The first spellings of some keys, in the order in which they come. -/
def firstSpellings (keys : List String) : List String := keys.eraseDupsBy sameLetters

theorem firstSpellings_cons (first : String) (rest : List String) :
    firstSpellings (first :: rest) =
      first :: firstSpellings (rest.filter fun b => !sameLetters b first) := by
  rw [firstSpellings, List.eraseDupsBy_cons, firstSpellings]
  simp only [Bool.decide_eq_false]

theorem firstSpellings_concat (keys : List String) (key : String) :
    firstSpellings (keys ++ [key]) =
      if keys.any (sameLetters key) then firstSpellings keys else firstSpellings keys ++ [key] := by
  cases keys with
  | nil => rfl
  | cons first rest =>
    rw [List.cons_append, firstSpellings_cons, firstSpellings_cons, List.filter_append,
      List.any_cons]
    cases hkey : sameLetters key first with
    | true => simp [hkey]
    | false =>
      -- What is spelled as `key` is not spelled as `first`, so it is still in the rest.
      have hany : (rest.filter fun b => !sameLetters b first).any (sameLetters key) =
          rest.any (sameLetters key) := by
        rw [List.any_filter]
        refine List.any_congr rfl fun b => ?_
        cases hb : sameLetters key b with
        | false => rw [Bool.and_false]
        | true => rw [← sameLetters_congr hb, hkey]; rfl
      have hlast : [key].filter (fun b => !sameLetters b first) = [key] := by
        simp [hkey]
      rw [hlast, firstSpellings_concat, hany, Bool.false_or]
      split <;> rfl
termination_by keys.length
decreasing_by exact Nat.lt_succ_of_le (List.length_filter_le _ _)

/-- There is a value under a key exactly if the key was given in some spelling. -/
theorem valuesUnder_eq_nil_iff :
    valuesUnder key log = [] ↔ (log.map Prod.fst).any (sameLetters key) = false := by
  unfold valuesUnder
  rw [List.map_eq_nil_iff, List.filter_eq_nil_iff, List.any_map, List.any_eq_false]
  rfl

/-! ## One addition -/

/-- **What an addition does.** Either a value goes behind the others of a key that is there in some
spelling, or there is none and the key gets an entry at the end. -/
theorem addTo_cases (key value : String) (entries : List (String × List String)) :
    (∃ before entry after, entries = before ++ entry :: after ∧ sameLetters entry.1 key = true ∧
      addTo key value entries = before ++ (entry.1, entry.2 ++ [value]) :: after) ∨
    (entries.any (fun entry => sameLetters entry.1 key) = false ∧
      addTo key value entries = entries ++ [(key, [value])]) := by
  induction entries with
  | nil => exact .inr ⟨rfl, rfl⟩
  | cons first rest ih =>
    rw [addTo]
    by_cases hfirst : sameLetters first.1 key = true
    · rw [if_pos hfirst]
      exact .inl ⟨[], first, rest, rfl, hfirst, rfl⟩
    · rw [if_neg hfirst, List.any_cons, Bool.eq_false_iff.2 hfirst, Bool.false_or]
      rcases ih with ⟨before, entry, after, rfl, hsame, hadd⟩ | ⟨hnone, hadd⟩
      · exact .inl ⟨first :: before, entry, after, rfl, hsame, by rw [hadd]; rfl⟩
      · exact .inr ⟨hnone, by rw [hadd]; rfl⟩

/-! ## The log -/

/-- What parameters hold after the additions of a log. -/
structure Records (params : Params) (log : List (String × String)) : Prop where
  /-- Under each key, the values that the log gives under any spelling of it. -/
  values : ∀ key, params.valuesOf key = valuesUnder key log
  /-- The keys in their first spellings. -/
  keys : params.entries.map Prod.fst = firstSpellings (log.map Prod.fst)
  /-- No key in two spellings. -/
  distinct : (params.entries.map Prod.fst).Pairwise fun a b => sameLetters a b = false
  /-- No key without a value. -/
  held : ∀ entry ∈ params.entries, entry.2 ≠ []
  /-- One value for each addition. -/
  count : (params.entries.flatMap Prod.snd).length = log.length

theorem records_empty : Records empty [] where
  values _ := rfl
  keys := rfl
  distinct := .nil
  held _ h := absurd h List.not_mem_nil
  count := rfl

/-- Where no key is without a value, a key is there if it has one. -/
theorem Records.contains_iff (h : Records params log) (key : String) :
    params.contains key = true ↔ valuesUnder key log ≠ [] := by
  rw [← h.values, contains, valuesOf, ← List.isSome_find?]
  cases hfind : params.entries.find? fun entry => sameLetters entry.1 key with
  | none => simp
  | some entry =>
    have hheld := h.held entry (List.mem_of_find?_eq_some hfind)
    simpa using hheld

theorem Records.contains_eq (h : Records params log) (key : String) :
    params.contains key = (log.map Prod.fst).any (sameLetters key) := by
  rw [Bool.eq_iff_iff, h.contains_iff, ne_eq, valuesUnder_eq_nil_iff, Bool.not_eq_false]

theorem Records.values_add (h : Records params log) (key value other : String) :
    (params.add key value).valuesOf other = valuesUnder other (log ++ [(key, value)]) := by
  rw [valuesOf_add, h.values, valuesUnder_concat, sameLetters_comm other key]
  split
  · rfl
  · rw [List.append_nil]

theorem Records.keys_add (h : Records params log) (key value : String) :
    firstSpellings ((log ++ [(key, value)]).map Prod.fst) =
      if params.contains key then params.entries.map Prod.fst
      else params.entries.map Prod.fst ++ [key] := by
  rw [List.map_append, List.map_singleton, firstSpellings_concat, ← h.contains_eq, h.keys]

/-- A value behind the others of its key. -/
theorem Records.add_behind (h : Records params log) {before after : List (String × List String)}
    {entry : String × List String} (hentries : params.entries = before ++ entry :: after)
    (hsame : sameLetters entry.1 key = true)
    (hadd : addTo key value params.entries =
      before ++ (entry.1, entry.2 ++ [value]) :: after) :
    Records (params.add key value) (log ++ [(key, value)]) := by
  have hthere : params.contains key = true :=
    List.any_eq_true.2 ⟨entry, hentries ▸ List.mem_append_cons_self, hsame⟩
  have hkeys : (params.add key value).entries.map Prod.fst = params.entries.map Prod.fst := by
    rw [Params.add, hadd, hentries, List.map_append, List.map_append]
    rfl
  refine ⟨h.values_add key value, ?_, hkeys ▸ h.distinct, fun other hother => ?_, ?_⟩
  · rw [hkeys, h.keys_add, if_pos hthere]
  · rw [Params.add, hadd] at hother
    rcases List.mem_append.1 hother with hother | hother
    · exact h.held other (hentries ▸ List.mem_append_left _ hother)
    rcases List.mem_cons.1 hother with rfl | hother
    · exact List.append_ne_nil_of_right_ne_nil _ (List.cons_ne_nil value [])
    · exact h.held other (hentries ▸ List.mem_append_right _ (List.mem_cons_of_mem _ hother))
  · have hcount := h.count
    rw [hentries] at hcount
    simp only [List.flatMap_append, List.flatMap_cons, List.length_append] at hcount
    simp only [Params.add, hadd, List.flatMap_append, List.flatMap_cons, List.length_append,
      List.length_singleton]
    omega

/-- A value under a new key. -/
theorem Records.add_new (h : Records params log)
    (hnone : params.entries.any (fun entry => sameLetters entry.1 key) = false)
    (hadd : addTo key value params.entries = params.entries ++ [(key, [value])]) :
    Records (params.add key value) (log ++ [(key, value)]) := by
  have hkeys : (params.add key value).entries.map Prod.fst =
      params.entries.map Prod.fst ++ [key] := by
    rw [Params.add, hadd, List.map_append]
    rfl
  refine ⟨h.values_add key value, ?_, ?_, fun other hother => ?_, ?_⟩
  · rw [hkeys, h.keys_add, contains, hnone, if_neg Bool.false_ne_true]
  · rw [hkeys]
    refine List.pairwise_append.2 ⟨h.distinct, List.pairwise_singleton _ _, fun a ha b hb => ?_⟩
    obtain ⟨entry, hentry, rfl⟩ := List.mem_map.1 ha
    rw [List.mem_singleton.1 hb, Bool.eq_false_iff]
    exact List.any_eq_false.1 hnone entry hentry
  · rw [Params.add, hadd] at hother
    rcases List.mem_append.1 hother with hother | hother
    · exact h.held other hother
    · rw [List.mem_singleton.1 hother]
      exact List.cons_ne_nil value []
  · simp only [Params.add, hadd, List.flatMap_append, List.length_append, h.count]
    rfl

/-- **One addition** is recorded. -/
theorem Records.add (h : Records params log) (key value : String) :
    Records (params.add key value) (log ++ [(key, value)]) := by
  rcases addTo_cases key value params.entries with
    ⟨before, entry, after, hentries, hsame, hadd⟩ | ⟨hnone, hadd⟩
  · exact h.add_behind hentries hsame hadd
  · exact h.add_new hnone hadd

/-- **Many additions** are recorded behind those before them. -/
theorem Records.foldl (h : Records params log) (pairs : List (String × String)) :
    Records (pairs.foldl (fun params pair => params.add pair.1 pair.2) params) (log ++ pairs) := by
  induction pairs generalizing params log with
  | nil => rwa [List.append_nil]
  | cons pair rest ih =>
    rw [List.foldl_cons, List.append_cons]
    exact ih (h.add pair.1 pair.2)

theorem records_ofPairs (log : List (String × String)) : Records (ofPairs log) log :=
  records_empty.foldl log

/-- **Every history is recorded.** -/
theorem History.records (h : History params log) : Records params log := by
  induction h with
  | empty => exact records_empty
  | add _ key value ih => exact ih.add key value
  | pairs log => exact records_ofPairs log
  | fields items =>
    rw [value_ofFields]
    exact records_ofPairs (pairsOf items)

/-! ## Another order -/

/-- The keys in lower case are as different as the keys. -/
theorem Records.nodup (h : Records params log) :
    (params.entries.map fun entry => Text.lower entry.1).Nodup := by
  have hdistinct := h.distinct
  rw [List.pairwise_map] at hdistinct
  rw [List.Nodup, List.pairwise_map]
  refine hdistinct.imp fun hne heq => ?_
  rw [Text.sameLetters_iff.2 heq] at hne
  exact Bool.noConfusion hne

theorem Records.mem_lower_iff (h : Records params log) (name : String) :
    name ∈ params.entries.map (fun entry => Text.lower entry.1) ↔
      ∃ key, Text.lower key = name ∧ valuesUnder key log ≠ [] := by
  constructor
  · intro hmem
    obtain ⟨entry, hentry, rfl⟩ := List.mem_map.1 hmem
    refine ⟨entry.1, rfl, (h.contains_iff entry.1).1 ?_⟩
    exact List.any_eq_true.2 ⟨entry, hentry, Text.sameLetters_refl entry.1⟩
  · rintro ⟨key, rfl, hkey⟩
    obtain ⟨entry, hentry, hsame⟩ := List.any_eq_true.1 ((h.contains_iff key).2 hkey)
    exact List.mem_map.2 ⟨entry, hentry, Text.sameLetters_iff.1 hsame⟩

/-- **The number of keys** depends on the values under each key alone. -/
theorem Records.size_eq (h : Records params log) (hother : Records other reordered)
    (hvalues : ∀ key, valuesUnder key reordered = valuesUnder key log) :
    other.size = params.size := by
  have hperm : (other.entries.map fun entry => Text.lower entry.1).Perm
      (params.entries.map fun entry => Text.lower entry.1) := by
    rw [List.perm_ext_iff_of_nodup hother.nodup h.nodup]
    intro name
    simp only [h.mem_lower_iff, hother.mem_lower_iff, hvalues]
  have hlength := hperm.length_eq
  rwa [List.length_map, List.length_map] at hlength

/-! ## The fields of a list -/

/-- The pairs are the elements two by two, and an element that is left over is in none. -/
theorem getElem?_pairsOf (items : List Field) (i : Nat) :
    (pairsOf items)[i]? =
      items[2 * i]?.bind fun key => items[2 * i + 1]?.map fun value =>
        (key.asText, value.asText) := by
  induction items using pairsOf.induct generalizing i with
  | case1 key value rest ih =>
    cases i with
    | zero => rfl
    | succ i =>
      have hi : 2 * (i + 1) = 2 * i + 1 + 1 := by omega
      rw [pairsOf, List.getElem?_cons_succ, ih, hi]
      rfl
  | case2 items hshort =>
    cases items with
    | nil => rfl
    | cons key rest =>
      cases rest with
      | cons value rest => exact absurd rfl (hshort key value rest)
      | nil => simp [pairsOf]

/-! ## Look-ups -/

/-- **Parameters are an ordered multimap.** After the additions of a log, one by one, from a list of
pairs or from alternating fields, each key has the values that the log gives under any spelling of
it, in order; the first of them is what it is looked up as, and it is there if there is one. The
keys are the first spellings in their order, no two of them the same, none without a value; they are
counted, and there is one value for each addition. Another log with the same additions in the same
order for each key answers every look-up alike. -/
theorem History.answers (h : History params log) :
    (∀ key, params.valuesOf key = valuesUnder key log ∧
      params.get? key = (valuesUnder key log).head? ∧
      (params.contains key = true ↔ valuesUnder key log ≠ [])) ∧
    params.entries.map Prod.fst = firstSpellings (log.map Prod.fst) ∧
    (params.entries.map Prod.fst).Pairwise (fun a b => sameLetters a b = false) ∧
    (∀ entry ∈ params.entries, entry.2 ≠ []) ∧
    params.size = (firstSpellings (log.map Prod.fst)).length ∧
    (params.entries.flatMap Prod.snd).length = log.length ∧
    (∀ (items : List Field) (i : Nat), (pairsOf items)[i]? =
      items[2 * i]?.bind fun key => items[2 * i + 1]?.map fun value =>
        (key.asText, value.asText)) ∧
    ∀ (other : Params) (reordered : List (String × String)), History other reordered →
      (∀ key, reordered.filter (fun pair => sameLetters key pair.1) =
        log.filter fun pair => sameLetters key pair.1) →
      other.size = params.size ∧
      ∀ key, other.valuesOf key = params.valuesOf key ∧ other.get? key = params.get? key ∧
        other.contains key = params.contains key := by
  have hrecords := h.records
  have hget : ∀ key, params.get? key = (valuesUnder key log).head? := fun key => by
    rw [get?, hrecords.values]
  refine ⟨fun key => ⟨hrecords.values key, hget key, hrecords.contains_iff key⟩, hrecords.keys,
    hrecords.distinct, hrecords.held, ?_, hrecords.count, getElem?_pairsOf, ?_⟩
  · rw [← hrecords.keys, List.length_map, size]
  · intro other reordered hhistory hfilter
    have hother := hhistory.records
    have hvalues : ∀ key, valuesUnder key reordered = valuesUnder key log := fun key => by
      rw [valuesUnder, hfilter, valuesUnder]
    refine ⟨hrecords.size_eq hother hvalues, fun key => ⟨?_, ?_, ?_⟩⟩
    · rw [hother.values, hrecords.values, hvalues]
    · rw [get?, get?, hother.values, hrecords.values, hvalues]
    · rw [Bool.eq_iff_iff, hother.contains_iff, hrecords.contains_iff, hvalues]

/-- Two additions under different keys may change places. -/
theorem filter_swap {first second : String × String}
    (h : sameLetters first.1 second.1 = false) (rest : List (String × String)) (key : String) :
    (second :: first :: rest).filter (fun pair => sameLetters key pair.1) =
      (first :: second :: rest).filter fun pair => sameLetters key pair.1 := by
  simp only [List.filter_cons]
  cases hfirst : sameLetters key first.1 with
  | false => rfl
  | true =>
    have hsecond : sameLetters key second.1 = false := by rw [sameLetters_congr hfirst, h]
    rw [hsecond]
    rfl

/-- A key twice, another one between, and one left over. -/
def charsetFields : List Field :=
  [.atom "CHARSET", .atom "utf-8", .atom "NAME", .atom "note", .atom "charset", .number 8,
    .atom "left"]

/-- The parameters of the fields, and the same additions one by one in another order. -/
theorem History.answers_charset :
    History (ofFields charsetFields).value
        [("CHARSET", "utf-8"), ("NAME", "note"), ("charset", "")] ∧
      (ofFields charsetFields).value.valuesOf "charset" = ["utf-8", ""] ∧
      (ofFields charsetFields).value.entries.map Prod.fst = ["CHARSET", "NAME"] ∧
      ∀ other, History other [("NAME", "note"), ("CHARSET", "utf-8"), ("charset", "")] →
        other.size = (ofFields charsetFields).value.size ∧
        ∀ key, other.valuesOf key = (ofFields charsetFields).value.valuesOf key ∧
          other.get? key = (ofFields charsetFields).value.get? key ∧
          other.contains key = (ofFields charsetFields).value.contains key := by
  have hcharset : sameLetters "charset" "CHARSET" = true :=
    Text.sameLetters_iff_toList.2 (by decide)
  have hcharsetName : sameLetters "charset" "NAME" = false :=
    Bool.eq_false_iff.2 fun hsame => absurd (Text.sameLetters_iff_toList.1 hsame) (by decide)
  have hnames : sameLetters "CHARSET" "NAME" = false := by
    rw [← sameLetters_congr hcharset, hcharsetName]
  have hparams : History (ofFields charsetFields).value
      [("CHARSET", "utf-8"), ("NAME", "note"), ("charset", "")] := .fields charsetFields
  obtain ⟨hlookup, hkeys, -, -, -, -, -, horder⟩ := History.answers hparams
  refine ⟨hparams, ?_, ?_, fun other hother =>
    horder other _ hother (filter_swap hnames [("charset", "")])⟩
  · rw [(hlookup "charset").1]
    simp [valuesUnder, hcharset, hcharsetName, Text.sameLetters_refl]
  · rw [hkeys]
    simp [firstSpellings, List.eraseDupsBy_cons, hcharset, sameLetters_comm "NAME", hnames]

end MailOutline.Params
