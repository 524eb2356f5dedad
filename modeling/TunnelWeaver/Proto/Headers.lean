import TunnelWeaver.Proto.Policy
import Mathlib.Data.List.Nodup

/-! Header maps as the `http` crate has them, and what both proxies read off a `Connection`
field. -/

namespace TunnelWeaver.Proto

open Mux (Bytes)

variable {n k : String} {v : Bytes} {fields fields' : List Field}

/-- The values of a field name, in order. -/
def valuesOf (name : String) (fields : List Field) : List Bytes :=
  (fields.filter (·.1 = name)).map (·.2)

@[simp] theorem valuesOf_nil : valuesOf n [] = [] := rfl

@[simp] theorem valuesOf_append :
    valuesOf n (fields ++ fields') = valuesOf n fields ++ valuesOf n fields' := by
  simp [valuesOf]

@[simp] theorem valuesOf_cons :
    valuesOf n ((k, v) :: fields) = (if n = k then [v] else []) ++ valuesOf n fields := by
  by_cases h : n = k
  · simp [valuesOf, h]
  · simp [valuesOf, h, Ne.symm h]

theorem valuesOf_pairs (name : String) (values : List Bytes) :
    valuesOf n (values.map (name, ·)) = if name = n then values else [] := by
  by_cases h : name = n <;> simp [valuesOf, List.filter_map, h, Function.comp_def]

theorem mem_valuesOf : v ∈ valuesOf n fields ↔ (n, v) ∈ fields := by
  simp [valuesOf]

theorem valuesOf_eq_nil (h : ∀ f ∈ fields, f.1 ≠ n) : valuesOf n fields = [] := by
  rw [valuesOf, List.filter_eq_nil_iff.mpr (by simpa using h), List.map_nil]

/-- A filter that keeps all fields of a name. -/
theorem valuesOf_filter {p : Field → Bool} (h : ∀ w, (n, w) ∈ fields → p (n, w) = true) :
    valuesOf n (fields.filter p) = valuesOf n fields := by
  rw [valuesOf, List.filter_filter, valuesOf]
  congr 1
  refine List.filter_congr fun f hf => ?_
  by_cases hname : f.1 = n
  · have hp := h f.2 (by rwa [← hname])
    rw [← hname] at hp
    simp [hp]
  · simp [hname]

/-- A filter that drops all fields of a name. -/
theorem valuesOf_filter_eq_nil {p : Field → Bool} (h : ∀ w, (n, w) ∈ fields → p (n, w) = false) :
    valuesOf n (fields.filter p) = [] := by
  refine valuesOf_eq_nil fun f hf hname => ?_
  obtain ⟨hmem, hp⟩ := List.mem_filter.mp hf
  have hp' := h f.2 (by rwa [← hname])
  rw [← hname, hp] at hp'
  cases hp'

/-! ## Header maps -/

/-- `HeaderMap`. The values of a name stay together. -/
structure HeaderMap where
  entries : List (String × List Bytes) := []
  nodup : (entries.map Prod.fst).Nodup := by exact List.nodup_nil

namespace HeaderMap

/-- The values of a name become others; a name that was not there goes last. -/
def update (m : HeaderMap) (name : String) (f : List Bytes → List Bytes) : HeaderMap :=
  if h : name ∈ m.entries.map Prod.fst then
    { entries := m.entries.map fun e => if e.1 = name then (e.1, f e.2) else e
      nodup := by
        have hkeys : (Prod.fst ∘ fun e : String × List Bytes =>
            if e.1 = name then (e.1, f e.2) else e) = Prod.fst := by
          funext e
          by_cases he : e.1 = name <;> simp [he]
        rw [List.map_map, hkeys]
        exact m.nodup }
  else
    { entries := m.entries ++ [(name, f [])]
      nodup := by
        rw [List.map_append]
        exact List.nodup_append'.mpr ⟨m.nodup, List.nodup_singleton _, by simpa using h⟩ }

def append (m : HeaderMap) (name : String) (value : Bytes) : HeaderMap :=
  m.update name fun values => values ++ [value]

/-- The values of the name so far are dropped. -/
def insert (m : HeaderMap) (name : String) (value : Bytes) : HeaderMap :=
  m.update name fun _ => [value]

def iter (m : HeaderMap) : List Field := m.entries.flatMap fun e => e.2.map (e.1, ·)

def getAll (m : HeaderMap) (name : String) : List Bytes := valuesOf name m.iter

def get (m : HeaderMap) (name : String) : Option Bytes := (m.getAll name).head?

def ofFields (fields : List Field) : HeaderMap :=
  fields.foldl (fun m f => m.append f.1 f.2) {}

theorem valuesOf_flatMap (n : String) (entries : List (String × List Bytes)) :
    valuesOf n (entries.flatMap fun e => e.2.map (e.1, ·)) =
      entries.flatMap fun e => if e.1 = n then e.2 else [] := by
  induction entries with
  | nil => rfl
  | cons e entries ih => rw [List.flatMap_cons, valuesOf_append, valuesOf_pairs, ih,
      List.flatMap_cons]

theorem flatMap_eq_nil {entries : List (String × List Bytes)} (h : n ∉ entries.map Prod.fst) :
    (entries.flatMap fun e => if e.1 = n then e.2 else []) = [] := by
  refine List.flatMap_eq_nil_iff.mpr fun e he => if_neg fun hn => h ?_
  exact List.mem_map.mpr ⟨e, he, hn⟩

/-- One entry holds all values of a name, and it is the one updated. -/
theorem flatMap_update {entries : List (String × List Bytes)} (f : List Bytes → List Bytes)
    (hnodup : (entries.map Prod.fst).Nodup) (hmem : n ∈ entries.map Prod.fst) :
    ((entries.map fun e => if e.1 = n then (e.1, f e.2) else e).flatMap
        fun e => if e.1 = n then e.2 else []) =
      f (entries.flatMap fun e => if e.1 = n then e.2 else []) := by
  induction entries with
  | nil => simp at hmem
  | cons e entries ih =>
    rw [List.map_cons, List.nodup_cons] at hnodup
    by_cases he : e.1 = n
    · have hrest : entries.map (fun e => if e.1 = n then (e.1, f e.2) else e) = entries := by
        refine (List.map_congr_left fun x hx => if_neg fun hn => hnodup.1 ?_).trans
          (List.map_id _)
        exact List.mem_map.mpr ⟨x, hx, hn.trans he.symm⟩
      rw [List.map_cons, hrest, List.flatMap_cons, List.flatMap_cons,
        flatMap_eq_nil (he ▸ hnodup.1)]
      simp [he]
    · have hmem' : n ∈ entries.map Prod.fst := by
        rcases List.mem_cons.mp hmem with h | h
        · exact absurd h.symm he
        · exact h
      simpa [he] using ih hnodup.2 hmem'

theorem flatMap_update_of_ne {entries : List (String × List Bytes)} (f : List Bytes → List Bytes)
    (h : k ≠ n) :
    ((entries.map fun e => if e.1 = n then (e.1, f e.2) else e).flatMap
        fun e => if e.1 = k then e.2 else []) =
      entries.flatMap fun e => if e.1 = k then e.2 else [] := by
  rw [List.flatMap_map]
  refine List.flatMap_congr fun e _ => ?_
  by_cases he : e.1 = n
  · simp [he, h.symm]
  · simp [he]

theorem getAll_update (m : HeaderMap) (f : List Bytes → List Bytes) :
    (m.update n f).getAll k = if k = n then f (m.getAll n) else m.getAll k := by
  by_cases hmem : n ∈ m.entries.map Prod.fst
  · rw [update, dif_pos hmem]
    simp only [getAll, iter, valuesOf_flatMap]
    by_cases hk : k = n
    · rw [if_pos hk, hk, flatMap_update f m.nodup hmem]
    · rw [if_neg hk, flatMap_update_of_ne f hk]
  · rw [update, dif_neg hmem]
    simp only [getAll, iter, List.flatMap_append, List.flatMap_singleton, valuesOf_append,
      valuesOf_flatMap, valuesOf_pairs]
    by_cases hk : k = n
    · rw [if_pos hk, hk, flatMap_eq_nil hmem, if_pos rfl, List.nil_append]
    · rw [if_neg hk, if_neg (Ne.symm hk), List.append_nil]

theorem getAll_append (m : HeaderMap) :
    (m.append n v).getAll k = m.getAll k ++ if k = n then [v] else [] := by
  rw [append, getAll_update]
  by_cases h : k = n <;> simp [h]

theorem getAll_insert (m : HeaderMap) :
    (m.insert n v).getAll k = if k = n then [v] else m.getAll k :=
  getAll_update m _

theorem getAll_foldl (m : HeaderMap) :
    (fields.foldl (fun m f => m.append f.1 f.2) m).getAll n = m.getAll n ++ valuesOf n fields := by
  induction fields generalizing m with
  | nil => simp
  | cons f fields ih =>
    rw [List.foldl_cons, ih, getAll_append, List.append_assoc, ← valuesOf_cons]

/-- A name keeps its values, in order. -/
@[simp] theorem getAll_ofFields : (ofFields fields).getAll n = valuesOf n fields :=
  getAll_foldl _

theorem mem_iter_ofFields {f : Field} : f ∈ (ofFields fields).iter ↔ f ∈ fields :=
  calc f ∈ (ofFields fields).iter
    _ ↔ f.2 ∈ (ofFields fields).getAll f.1 := mem_valuesOf.symm
    _ ↔ f.2 ∈ valuesOf f.1 fields := by rw [getAll_ofFields]
    _ ↔ f ∈ fields := mem_valuesOf

end HeaderMap

/-! ## Connection fields -/

/-- `HeaderValue::to_str`: visible ASCII, spaces and tabs. -/
def toStr (value : Bytes) : Option String :=
  if value.all fun b => 32 ≤ b && b < 127 || b == 9 then
    some (.ofList (value.map fun b => .ofNat b.toNat))
  else none

/-- The parts of a comma-separated list. -/
def commaParts (s : String) : List String :=
  (s.toList.splitOn ',').map fun part => .ofList (Policy.trim part)

/-- The lowercase tokens of a `Connection` field, if it is text. -/
def tokensOf (value : Bytes) : List String :=
  match toStr value with
  | none => []
  | some s => ((commaParts s).map toAsciiLowercase).filter (· ≠ "")

/-- The lowercase tokens of every `Connection` field. -/
def connectionTokens (m : HeaderMap) : List String := (m.getAll "connection").flatMap tokensOf

end TunnelWeaver.Proto
