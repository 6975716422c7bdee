import ScriptValues.Operations.Conversions
import ScriptValues.Operations.Lists
import ScriptValues.Operations.Mappings

/-!
# Computations

What each computation does with its arguments.
-/

namespace ScriptValues

def Computation.run (resolved : FutureId → Bool) : Computation → Arguments → Result Value
  | .split => Texts.split
  | .join => Texts.join resolved
  | .substring => Texts.substring
  | .replace => Texts.replace
  | .trim => Texts.trim
  | .toUpper => Texts.toUpper
  | .toLower => Texts.toLower
  | .contains => Texts.contains
  | .startsWith => Texts.startsWith
  | .endsWith => Texts.endsWith
  | .len => Lists.len
  | .append => Lists.append
  | .prepend => Lists.prepend
  | .pop => Lists.pop
  | .shift => Lists.shift
  | .slice => Lists.slice
  | .clampedSlice => Lists.clampedSlice
  | .sort => Lists.sort resolved
  | .reverse => Lists.reverse
  | .concat => Lists.concat
  | .indexOf => Lists.indexOf
  | .includes => Lists.includes
  | .get => Lists.get
  | .first => Lists.first
  | .last => Lists.last
  | .mapGet => Mappings.get
  | .mapSet => Mappings.set
  | .mapHas => Mappings.has
  | .mapKeys => Mappings.keys
  | .mapValues => Mappings.values
  | .mapDelete => Mappings.delete
  | .mapClear => Mappings.clear
  | .mapEntries => Mappings.entries
  | .mapSize => Mappings.size
  | .toString => Conversions.toString resolved
  | .toNumber => Conversions.toNumber
  | .toInt => Conversions.toInt
  | .toBool => Conversions.toBool
  | .sqrt => Arithmetic.sqrt
  | .abs => Arithmetic.abs
  | .round => fun a => Arithmetic.toIntegral a .halfAwayFromZero
  | .floor => fun a => Arithmetic.toIntegral a .down
  | .ceil => fun a => Arithmetic.toIntegral a .up
  | .min => Arithmetic.min
  | .max => Arithmetic.max
  | .typeOf => Conversions.typeOf
  | .isNull => Conversions.isNull
  | .isEmpty => Conversions.isEmpty
  | .spawn => Conversions.spawn

end ScriptValues
