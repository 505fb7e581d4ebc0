import ZoneMta.Native.DkimSign
import ZoneMta.Spec.Lines
import ZoneMta.Spec.RelaxedHeader

/-!
# DKIM signature headers

When the header that `relaxedHeaders` signs is the header that a verifier reads with the names it
returns. The two differ in what they take for white space: `\s` is also the vertical tab, the form
feed, the no-break space, and every `\r` and `\n`.

## Key results

- `canonicalBody_of_clean`: the body of a field without other white space
- `signedFields_eq`: what a verifier reads for names that are all different
- `relaxedHeaders_iff`: the condition under which signer and verifier agree
-/

namespace ZoneMta

namespace DkimSign

open Ascii RelaxedHeader
open ForStd (Map replaceAll replaceFrom replaceFrom_congr mem_replaceFrom replaceAll_cons_none
  rdropWhile_append_of_all rdropWhile_of_getLast? takeWhile_congr dropWhile_congr eq_of_sum_map_eq
  lookup_insert)

/-! ## Bytes -/

/-- White space of `\s` that is no white space of a header. -/
def isOther (c : UInt8) : Bool := isSpace c && !isWsp c

/-- A fact about all bytes. -/
theorem forall_byte {p : UInt8 → Prop} (h : ∀ n : Fin 256, p (UInt8.ofFin n)) (c : UInt8) : p c :=
  h c.toFin

theorem isSpace_of_isWsp {c : UInt8} (h : isWsp c = true) : isSpace c = true := by
  obtain rfl | rfl := (isWsp_iff c).mp h <;> decide

theorem isSpace_eq_false_of_isFtext {c : UInt8} : isFtext c = true → isSpace c = false := by
  exact forall_byte (p := fun c => isFtext c = true → isSpace c = false) (by decide +kernel) c

theorem isWsp_eq_false_of_isFtext {c : UInt8} (h : isFtext c = true) : isWsp c = false := by
  by_contra hwsp
  have hspace := isSpace_of_isWsp (eq_true_of_ne_false hwsp)
  rw [isSpace_eq_false_of_isFtext h] at hspace
  exact Bool.false_ne_true hspace

theorem ne_colon_of_isFtext {c : UInt8} (h : isFtext c = true) : (c != COLON) = true := by
  rw [isFtext, Bool.and_eq_true] at h
  exact h.2

theorem ne_colon_of_isWsp {c : UInt8} (h : isWsp c = true) : (c != COLON) = true := by
  obtain rfl | rfl := (isWsp_iff c).mp h <;> decide

/-! ## The body of a field -/

/-- Unfolded, the body has no white space but spaces and tabs. -/
def Clean (body : List UInt8) : Prop := ∀ c ∈ unfold body, isSpace c = true → isWsp c = true

instance (body : List UInt8) : Decidable (Clean body) := List.decidableBAll _ _

/-- The replacements of `relaxedHeaderLine`. -/
def canonicalBody (body : List UInt8) : List UInt8 :=
  trim (replaceAll RegExp.spaces [SP] (replaceAll ZoneMta.RegExp.lineBreak [] body))

/-- All line breaks of a clean body are folds. -/
theorem replaceAll_lineBreak_of_clean {body : List UInt8} (h : Clean body) :
    replaceAll ZoneMta.RegExp.lineBreak [] body = unfold body := by
  have hkeep : ∀ {c : UInt8} {s : List UInt8}, (isSpace c = true → isWsp c = true) →
      replaceAll ZoneMta.RegExp.lineBreak [] (c :: s) =
        c :: replaceAll ZoneMta.RegExp.lineBreak [] s := by
    intro c s hc
    -- outside a fold a line break is other white space
    have hcr : c ≠ CR := fun hcr => absurd (hc (by rw [hcr]; decide)) (by rw [hcr]; decide)
    have hlf : c ≠ LF := fun hlf => absurd (hc (by rw [hlf]; decide)) (by rw [hlf]; decide)
    exact replaceAll_cons_none (by simp [ZoneMta.RegExp.lineBreak, hcr, hlf])
  unfold Clean at h
  induction body using unfold.induct with
  | case1 => rfl
  | case2 c => exact hkeep (h c (List.mem_singleton_self c))
  | case3 c d s hfold ih =>
    obtain ⟨rfl, rfl, hwsp⟩ := hfold
    rw [RelaxedHeader.unfold, if_pos ⟨rfl, rfl, hwsp⟩] at h ⊢
    exact ih h
  | case4 c d s hfold ih =>
    rw [RelaxedHeader.unfold, if_neg hfold] at h ⊢
    rw [hkeep (h c List.mem_cons_self), ih fun x hx => h x (List.mem_cons_of_mem c hx)]

/-- Without other white space, `\s` is white space. -/
theorem isSpace_eq_isWsp {s : List UInt8} (h : ∀ c ∈ s, isSpace c = true → isWsp c = true) :
    ∀ c ∈ s, isSpace c = isWsp c := by
  intro c hc
  by_cases hspace : isSpace c = true
  · rw [hspace, h c hc hspace]
  · have hwsp : isWsp c = false :=
      eq_false_of_ne_true fun hwsp => hspace (isSpace_of_isWsp hwsp)
    rw [hwsp, eq_false_of_ne_true hspace]

theorem replaceAll_spaces_of_clean {s : List UInt8}
    (h : ∀ c ∈ s, isSpace c = true → isWsp c = true) :
    replaceAll RegExp.spaces [SP] s = reduceWsp s := by
  rw [← replaceAll_space]
  refine replaceFrom_congr [SP] (fun t ht => ?_) 0
  have htake : t.takeWhile isSpace = t.takeWhile isWsp :=
    takeWhile_congr (isSpace_eq_isWsp fun c hc => h c (ht.subset hc))
  rw [RegExp.spaces, ZoneMta.RegExp.space, htake]

theorem trim_of_clean {s : List UInt8} (h : ∀ c ∈ s, isSpace c = true → isWsp c = true) :
    trim s = strip s := by
  have heq := isSpace_eq_isWsp h
  unfold trim strip List.rdropWhile
  rw [dropWhile_congr heq, dropWhile_congr]
  intro c hc
  exact heq c ((List.dropWhile_sublist _).subset (List.mem_reverse.mp hc))

theorem canonicalBody_of_clean {body : List UInt8} (h : Clean body) :
    canonicalBody body = relaxBody body := by
  have hreduced : ∀ c ∈ reduceWsp (RelaxedHeader.unfold body),
      isSpace c = true → isWsp c = true := by
    intro c hc hspace
    obtain rfl | hc := mem_of_mem_reduceWsp hc
    · rfl
    · exact h c hc hspace
  rw [canonicalBody, replaceAll_lineBreak_of_clean h, replaceAll_spaces_of_clean h,
    trim_of_clean hreduced, relaxBody]

/-- The signer leaves single spaces. -/
theorem isOther_of_mem_canonicalBody {body : List UInt8} {c : UInt8} (h : c ∈ canonicalBody body) :
    isOther c = false := by
  have hmem : c ∈ replaceAll RegExp.spaces [SP] (replaceAll ZoneMta.RegExp.lineBreak [] body) :=
    (List.dropWhile_sublist _).subset ((List.rdropWhile_prefix _ _).subset h)
  -- a byte is from a replacement, or the expression does not match there
  obtain hc | ⟨t, -, hc⟩ := mem_replaceFrom hmem
  · rw [List.mem_singleton.mp hc]
    rfl
  · have hspace : isSpace c = false := by
      by_contra hspace
      simp [RegExp.spaces, eq_true_of_ne_false hspace] at hc
    rw [isOther, hspace, Bool.false_and]

theorem mem_reduceWsp_of_mem {c : UInt8} {s : List UInt8} (h : c ∈ s) (hc : isWsp c = false) :
    c ∈ reduceWsp s := by
  induction s with
  | nil => simp at h
  | cons d s ih =>
    rw [reduceWsp_cons]
    obtain rfl | h := List.mem_cons.mp h
    · simp [hc]
    · split
      · split
        · exact ih h
        · exact List.mem_cons_of_mem _ (ih h)
      · exact List.mem_cons_of_mem _ (ih h)

theorem mem_dropWhile_of_mem {c : UInt8} {s : List UInt8} (h : c ∈ s) (hc : isWsp c = false) :
    c ∈ s.dropWhile isWsp := by
  rw [← List.takeWhile_append_dropWhile (p := isWsp) (l := s)] at h
  obtain h | h := List.mem_append.mp h
  · exact absurd (List.mem_takeWhile_imp h) (by rw [hc]; exact Bool.false_ne_true)
  · exact h

/-- The verifier keeps what is no white space of a header. -/
theorem mem_relaxBody_of_mem {c : UInt8} {body : List UInt8} (h : c ∈ RelaxedHeader.unfold body)
    (hc : isWsp c = false) : c ∈ relaxBody body := by
  -- stripping the end is stripping the reversed list
  have hdropped := mem_dropWhile_of_mem (mem_reduceWsp_of_mem h hc) hc
  rw [relaxBody, strip, List.rdropWhile, List.mem_reverse]
  exact mem_dropWhile_of_mem (List.mem_reverse.mpr hdropped) hc

theorem clean_of_relaxBody {body : List UInt8} (h : ∀ c ∈ relaxBody body, isOther c = false) :
    Clean body := by
  intro c hc hspace
  by_contra hwsp
  have hwsp : isWsp c = false := eq_false_of_ne_true hwsp
  have hother := h c (mem_relaxBody_of_mem hc hwsp)
  rw [isOther, hspace, hwsp] at hother
  exact Bool.noConfusion hother

/-! ## The line of a field -/

/-- A field as the parser files it. -/
def entry (h : HeaderField) : Line := ⟨toLowerCase h.name, h.line⟩

theorem lower_lower (s : List UInt8) : lower (lower s) = lower s := by
  have hbyte := forall_byte (p := fun c =>
    (if 65 ≤ (if 65 ≤ c && c ≤ 90 then c + 32 else c) &&
        (if 65 ≤ c && c ≤ 90 then c + 32 else c) ≤ 90 then
      (if 65 ≤ c && c ≤ 90 then c + 32 else c) + 32
    else (if 65 ≤ c && c ≤ 90 then c + 32 else c)) =
      if 65 ≤ c && c ≤ 90 then c + 32 else c) (by decide +kernel)
  rw [lower, lower, List.map_map]
  exact List.map_congr_left fun c _ => hbyte c

/-- Field names have no other letters than those of ASCII. -/
theorem toLowerCase_name (h : HeaderField) : toLowerCase h.name = lower h.name := by
  have hbyte := forall_byte (p := fun c => isFtext c = true →
    (if 0x41 ≤ c && c ≤ 0x5a || 0xc0 ≤ c && c ≤ 0xde && c != 0xd7 then c + 0x20 else c) =
      if 65 ≤ c && c ≤ 90 then c + 32 else c) (by decide +kernel)
  exact List.map_congr_left fun c hc => hbyte c (h.isFtext_name c hc)

theorem isFtext_lower (h : HeaderField) : ∀ c ∈ lower h.name, isFtext c = true := by
  have hbyte := forall_byte (p := fun c => isFtext c = true →
    isFtext (if 65 ≤ c && c ≤ 90 then c + 32 else c) = true) (by decide +kernel)
  intro c hc
  obtain ⟨d, hd, rfl⟩ := List.mem_map.mp hc
  exact hbyte d (h.isFtext_name d hd)

theorem ne_colon_of_mem (h : HeaderField) : ∀ c ∈ h.name ++ h.blanks, (c != COLON) = true := by
  intro c hc
  obtain hc | hc := List.mem_append.mp hc
  · exact ne_colon_of_isFtext (h.isFtext_name c hc)
  · exact ne_colon_of_isWsp (h.isWsp_blanks c hc)

theorem dropWhile_line (h : HeaderField) :
    h.line.dropWhile (· != COLON) = COLON :: h.body := by
  rw [HeaderField.line, List.dropWhile_append_of_pos (ne_colon_of_mem h)]
  rfl

theorem fieldBody_line (h : HeaderField) : fieldBody h.line = h.body := by
  rw [fieldBody, dropWhile_line, List.tail_cons]

theorem fieldName_line (h : HeaderField) : fieldName h.line = lower h.name := by
  have htake : h.line.takeWhile (· != COLON) = h.name ++ h.blanks := by
    rw [HeaderField.line, List.takeWhile_append_of_pos (ne_colon_of_mem h)]
    exact List.append_nil _
  have hname : h.name.rdropWhile isWsp = h.name :=
    rdropWhile_of_getLast? fun c hc =>
      isWsp_eq_false_of_isFtext (h.isFtext_name c (List.mem_of_getLast? hc))
  rw [fieldName, htake, rdropWhile_append_of_all h.isWsp_blanks, hname]

theorem relaxedHeaderLine_line (h : HeaderField) :
    relaxedHeaderLine h.line = canonicalBody h.body := by
  have hcolon : COLON ∈ h.line := by simp [HeaderField.line]
  rw [relaxedHeaderLine, afterColon, if_pos hcolon, dropWhile_line, List.tail_cons, canonicalBody]

/-! ## The fields that are signed -/

/-- The last field with each name that is included. -/
def selected (headers : List HeaderField) (fieldNames : List UInt8) : List HeaderField :=
  (includedFields fieldNames).filterMap fun field =>
    headers.reverse.find? fun h => lower h.name == field

/-- A field that is found has the name. -/
theorem name_of_find {headers : List HeaderField} {field : List UInt8} {h : HeaderField}
    (hfind : (headers.reverse.find? fun h => lower h.name == field) = some h) :
    lower h.name = field := by
  have hbeq := List.find?_some hfind
  exact eq_of_beq hbeq

theorem name_selected (headers : List HeaderField) (fieldNames : List UInt8) :
    (selected headers fieldNames).map (lower ·.name) =
      (includedFields fieldNames).filter fun field =>
        (headers.reverse.find? fun h => lower h.name == field).isSome := by
  rw [selected, List.map_filterMap, ← List.filterMap_eq_filter]
  refine List.filterMap_congr fun field _ => ?_
  rw [Option.guard]
  cases hfind : headers.reverse.find? fun h => lower h.name == field with
  | none => rfl
  | some h => simp [name_of_find hfind]

/-- A field that is selected is the last one with its name. -/
theorem find?_of_mem_selected {headers : List HeaderField} {fieldNames : List UInt8}
    {h : HeaderField} (hmem : h ∈ selected headers fieldNames) :
    (headers.reverse.find? fun other => lower other.name == lower h.name) = some h := by
  obtain ⟨field, -, hfind⟩ := List.mem_filterMap.mp hmem
  rw [name_of_find hfind]
  exact hfind

theorem nodup_add {set : List (List UInt8)} (h : set.Nodup) (field : List UInt8) :
    (add set field).Nodup := by
  unfold add
  split
  · exact h
  · next hnew =>
    rw [← List.concat_eq_append]
    exact h.concat hnew

theorem nodup_includedFields (fieldNames : List UInt8) : (includedFields fieldNames).Nodup := by
  have hfold : ∀ (fields set : List (List UInt8)), set.Nodup →
      (fields.foldl (fun set field => add set (trim field)) set).Nodup := by
    intro fields
    induction fields with
    | nil => exact fun set hset => hset
    | cons field fields ih => exact fun set hset => ih _ (nodup_add hset (trim field))
  exact hfold _ [] List.nodup_nil

/-- The loop over the lines keeps the last line with each key that is included. -/
theorem lookup_includeLine (included : List (List UInt8)) (lines : List Line)
    (headerFields : Map (List UInt8) (List UInt8)) {field : List UInt8}
    (hfield : field ∈ included) :
    (lines.foldl (includeLine included) headerFields).lookup field =
      (headerFields.lookup field).or
        ((lines.find? (·.key == field)).map fun line => relaxedHeaderLine line.line) := by
  induction lines generalizing headerFields with
  | nil => rw [List.foldl_nil, List.find?_nil, Option.map_none, Option.or_none]
  | cons line lines ih =>
    rw [List.foldl_cons, ih, List.find?_cons]
    by_cases hkey : line.key = field
    · subst hkey
      rw [beq_self_eq_true]
      cases hlookup : headerFields.lookup line.key with
      | none => simp [includeLine, hfield, hlookup]
      | some value => simp [includeLine, hlookup]
    -- a line with another key leaves the value of the field alone
    · have hkept : (includeLine included headerFields line).lookup field =
          headerFields.lookup field := by
        unfold includeLine
        split
        · rw [lookup_insert, if_neg (Ne.symm hkey)]
        · rfl
      rw [hkept, beq_false_of_ne hkey]

/-- The headers and the names, from the fields that are selected. -/
theorem relaxedHeaders_eq (headers : List HeaderField) (fieldNames : List UInt8) :
    relaxedHeaders (headers.map entry) fieldNames =
      { headers := [CR, LF].intercalate ((selected headers fieldNames).map fun h =>
          lower h.name ++ COLON :: canonicalBody h.body) ++ [CR, LF]
        fieldNames := [COLON].intercalate ((selected headers fieldNames).map (lower ·.name)) } := by
  -- what the map has for a name is the body of the last field with it
  have hlookup : ∀ field ∈ includedFields fieldNames,
      ((headers.map entry).reverse.foldl (includeLine (includedFields fieldNames)) ∅).lookup field =
        (headers.reverse.find? fun h => lower h.name == field).map (canonicalBody ·.body) := by
    intro field hfield
    rw [lookup_includeLine _ _ _ hfield, AList.lookup_empty, Option.none_or, ← List.map_reverse,
      List.find?_map, Option.map_map]
    have hkey : (fun line : Line => line.key == field) ∘ entry = fun h => lower h.name == field :=
      funext fun h => by rw [Function.comp, entry, toLowerCase_name]
    have hline : (fun line : Line => relaxedHeaderLine line.line) ∘ entry =
        fun h => canonicalBody h.body := funext relaxedHeaderLine_line
    rw [hkey, hline]
  have hheaders : (includedFields fieldNames).filterMap (fun field =>
      (((headers.map entry).reverse.foldl (includeLine (includedFields fieldNames)) ∅).lookup
        field).map fun value => field ++ COLON :: value) =
      (selected headers fieldNames).map fun h => lower h.name ++ COLON :: canonicalBody h.body := by
    rw [selected, List.map_filterMap]
    refine List.filterMap_congr fun field hfield => ?_
    rw [hlookup field hfield, Option.map_map]
    cases hfind : headers.reverse.find? fun h => lower h.name == field with
    | none => rfl
    | some h => simp only [Option.map_some, Function.comp, name_of_find hfind]
  have hfields : (includedFields fieldNames).filter (fun field =>
      (((headers.map entry).reverse.foldl (includeLine (includedFields fieldNames)) ∅).lookup
        field).isSome) = (selected headers fieldNames).map (lower ·.name) := by
    rw [name_selected]
    refine List.filter_congr fun field hfield => ?_
    rw [hlookup field hfield, Option.isSome_map]
  simp only [relaxedHeaders, hheaders, hfields]

/-! ## The fields that a verifier reads -/

/-- Taking out a line with one name does not change which line has another name. -/
theorem find?_eraseP {p q : List UInt8 → Bool} (h : ∀ line, q line = true → p line = false)
    (lines : List (List UInt8)) : (lines.eraseP p).find? q = lines.find? q := by
  induction lines with
  | nil => rfl
  | cons line lines ih =>
    by_cases hp : p line = true
    · have hq : q line = false := by
        by_contra hq
        rw [h line (eq_true_of_ne_false hq)] at hp
        exact Bool.false_ne_true hp
      rw [List.eraseP_cons_of_pos hp, List.find?_cons_of_neg (by simp [hq])]
    · rw [List.eraseP_cons_of_neg hp, List.find?_cons, List.find?_cons, ih]

/-- With names that are all different, no line is asked for twice. -/
theorem signedFields_eq {names : List (List UInt8)} (hnames : (names.map lower).Nodup)
    (unused : List (List UInt8)) :
    signedFields unused names = (names.filterMap fun name =>
      unused.find? fun line => fieldName line == lower name).flatMap relaxField := by
  induction names generalizing unused with
  | nil => rfl
  | cons name names ih =>
    rw [List.map_cons, List.nodup_cons] at hnames
    obtain ⟨hname, hnames⟩ := hnames
    rw [signedFields, List.filterMap_cons]
    cases hfind : unused.find? fun line => fieldName line == lower name with
    | none => exact ih hnames unused
    | some line =>
      have hrest : (names.filterMap fun other =>
          (unused.eraseP fun line => fieldName line == lower name).find? fun line =>
            fieldName line == lower other) =
          names.filterMap fun other => unused.find? fun line => fieldName line == lower other := by
        refine List.filterMap_congr fun other hother => find?_eraseP (fun line hline => ?_) unused
        have hne : lower other ≠ lower name := fun heq =>
          hname (heq ▸ List.mem_map_of_mem hother)
        rw [eq_of_beq hline]
        exact beq_false_of_ne hne
      show relaxField line ++ signedFields _ names = _
      rw [ih hnames, hrest, List.flatMap_cons]

theorem strip_of_isFtext {s : List UInt8} (h : ∀ c ∈ s, isFtext c = true) : strip s = s := by
  have hwsp : ∀ c ∈ s, isWsp c = false := fun c hc => isWsp_eq_false_of_isFtext (h c hc)
  have hdrop : s.dropWhile isWsp = s := by
    cases s with
    | nil => rfl
    | cons c s => rw [List.dropWhile_cons_of_neg (by simp [hwsp c List.mem_cons_self])]
  rw [strip, hdrop]
  exact rdropWhile_of_getLast? fun c hc => hwsp c (List.mem_of_getLast? hc)

/-- The tag with the names of fields. -/
theorem tagNames_intercalate {headers : List HeaderField} (h : headers ≠ []) :
    tagNames ([COLON].intercalate (headers.map (lower ·.name))) = headers.map (lower ·.name) := by
  have hcolon : ∀ name ∈ headers.map (lower ·.name), COLON ∉ name := by
    intro name hname hmem
    obtain ⟨field, -, rfl⟩ := List.mem_map.mp hname
    exact absurd (ne_colon_of_isFtext (isFtext_lower field COLON hmem)) (by decide)
  rw [tagNames, List.splitOn_intercalate COLON hcolon (by simpa using h), List.map_map]
  exact List.map_congr_left fun field _ => strip_of_isFtext (isFtext_lower field)

/-- What a verifier reads with the names of the fields that are selected. -/
theorem verifiedHeaders_eq {headers : List HeaderField} {fieldNames : List UInt8}
    (h : selected headers fieldNames ≠ []) :
    verifiedHeaders (headers.map (·.line))
        ([COLON].intercalate ((selected headers fieldNames).map (lower ·.name))) =
      (selected headers fieldNames).flatMap fun h =>
        lower h.name ++ COLON :: relaxBody h.body ++ [CR, LF] := by
  -- no two of the names are equal, so the verifier can look for each in all lines
  have hnodup : (((selected headers fieldNames).map (lower ·.name)).map lower).Nodup := by
    have hlower : lower ∘ (fun h : HeaderField => lower h.name) = fun h => lower h.name :=
      funext fun h => lower_lower h.name
    rw [List.map_map, hlower, name_selected]
    exact (nodup_includedFields fieldNames).filter _
  -- for the name of a selected field it finds that field
  have hlines : ((selected headers fieldNames).map (lower ·.name)).filterMap (fun name =>
      (headers.map (·.line)).reverse.find? fun line => fieldName line == lower name) =
        (selected headers fieldNames).map (·.line) := by
    calc ((selected headers fieldNames).map (lower ·.name)).filterMap (fun name =>
          (headers.map (·.line)).reverse.find? fun line => fieldName line == lower name)
      _ = (selected headers fieldNames).filterMap (some ∘ HeaderField.line) := by
        rw [List.filterMap_map]
        refine List.filterMap_congr fun h hmem => ?_
        have hname : (fun line => fieldName line == lower (lower h.name)) ∘ HeaderField.line =
            fun other => lower other.name == lower h.name :=
          funext fun other => by rw [Function.comp, fieldName_line, lower_lower]
        rw [Function.comp, ← List.map_reverse, List.find?_map, hname, find?_of_mem_selected hmem]
        rfl
      _ = (selected headers fieldNames).map (·.line) := by rw [List.filterMap_eq_map]
  rw [verifiedHeaders, tagNames_intercalate h, signedFields_eq hnodup, hlines, List.flatMap_map]
  refine congrArg List.flatten (List.map_congr_left fun h _ => ?_)
  rw [relaxField, fieldName_line, fieldBody_line]

/-! ## Signer and verifier -/

/-- The lines of the fields, joined and ended, are the fields one after the other. -/
theorem intercalate_crlf {headers : List HeaderField} (h : headers ≠ [])
    (f : HeaderField → List UInt8) :
    [CR, LF].intercalate (headers.map f) ++ [CR, LF] =
      headers.flatMap fun h => f h ++ [CR, LF] := by
  induction headers with
  | nil => exact absurd rfl h
  | cons field headers ih =>
    by_cases hheaders : headers = []
    · simp [hheaders]
    · rw [List.map_cons, List.intercalate_cons_of_ne_nil (by simpa using hheaders),
        List.append_assoc, ih hheaders, List.flatMap_cons]

/-- Two white-space bytes end a field, and the others of the field are in its body. -/
theorem countP_isOther_field (h : HeaderField) (body : List UInt8) :
    (lower h.name ++ COLON :: body ++ [CR, LF]).countP isOther = body.countP isOther + 2 := by
  have hname : (lower h.name).countP isOther = 0 := by
    refine List.countP_eq_zero.mpr fun c hc => ?_
    rw [isOther, isSpace_eq_false_of_isFtext (isFtext_lower h c hc)]
    exact Bool.false_ne_true
  have hend : [CR, LF].countP isOther = 2 := by decide
  have hcolon : isOther COLON = false := by decide
  rw [List.countP_append, List.countP_append, List.countP_cons, hname, hend, hcolon]
  simp

theorem verifiedHeaders_nil (headers : List HeaderField) :
    verifiedHeaders (headers.map (·.line)) [] = [] := by
  have htag : tagNames [] = [[]] := rfl
  have hnone : ((headers.map (·.line)).reverse.find? fun line => fieldName line == lower []) =
      none := by
    refine List.find?_eq_none.mpr fun line hline => ?_
    obtain ⟨h, -, rfl⟩ := List.mem_map.mp (List.mem_reverse.mp hline)
    rw [fieldName_line]
    simpa [lower] using h.name_ne_nil
  rw [verifiedHeaders, htag, signedFields, hnone, signedFields]

/-- The verifier reads the headers that were signed if and only if one of the fields is there, and
    none of those that are signed has other white space. -/
theorem relaxedHeaders_iff (headers : List HeaderField) (fieldNames : List UInt8) :
    (relaxedHeaders (headers.map entry) fieldNames).headers =
        verifiedHeaders (headers.map (·.line))
          (relaxedHeaders (headers.map entry) fieldNames).fieldNames ↔
      selected headers fieldNames ≠ [] ∧ ∀ h ∈ selected headers fieldNames, Clean h.body := by
  rw [relaxedHeaders_eq]
  dsimp only
  -- without a field the signer still hashes a line break
  by_cases hsel : selected headers fieldNames = []
  · rw [hsel]
    simp [verifiedHeaders_nil]
  rw [intercalate_crlf hsel, verifiedHeaders_eq hsel]
  constructor
  · -- the two have equally many other bytes of white space, and the signer's bodies have none
    intro heq
    have hnone (h : HeaderField) : (canonicalBody h.body).countP isOther = 0 :=
      List.countP_eq_zero.mpr fun c hc => by simp [isOther_of_mem_canonicalBody hc]
    have hcount := congrArg (List.countP isOther) heq
    rw [List.countP_flatMap, List.countP_flatMap] at hcount
    refine ⟨hsel, fun h hmem => clean_of_relaxBody fun c hc => ?_⟩
    have hfield := eq_of_sum_map_eq (fun h _ => by
      simp only [Function.comp, countP_isOther_field, hnone]
      omega) hcount h hmem
    simp only [Function.comp, countP_isOther_field, hnone] at hfield
    have hzero : (relaxBody h.body).countP isOther = 0 := by omega
    exact eq_false_of_ne_true (List.countP_eq_zero.mp hzero c hc)
  · rintro ⟨-, hclean⟩
    refine congrArg List.flatten (List.map_congr_left fun h hmem => ?_)
    rw [canonicalBody_of_clean (hclean h hmem)]

/-- `Subject: voilà` in UTF-8. -/
def voila : HeaderField where
  name := [0x53, 0x75, 0x62, 0x6a, 0x65, 0x63, 0x74]
  blanks := []
  body := [0x20, 0x76, 0x6f, 0x69, 0x6c, 0xc3, 0xa0]
  name_ne_nil := by decide
  isFtext_name := by decide +kernel
  isWsp_blanks := by simp

/-- The last byte of `à` is a no-break space in a binary string, and is trimmed by the signer. -/
theorem relaxedHeaders_voila :
    (relaxedHeaders [entry voila] voila.name).headers =
        lower voila.name ++ [0x3a, 0x76, 0x6f, 0x69, 0x6c, 0xc3, 0x0d, 0x0a] ∧
      verifiedHeaders [voila.line] (relaxedHeaders [entry voila] voila.name).fieldNames =
        lower voila.name ++ [0x3a, 0x76, 0x6f, 0x69, 0x6c, 0xc3, 0xa0, 0x0d, 0x0a] := by
  decide +kernel

end DkimSign

end ZoneMta
