/-!
Scripts of Unicode characters, as lists of ranges of code points.
-/
namespace HclEval.Pattern.Script

def greek : List (Nat × Nat) := [
  (880, 887), (890, 893), (895, 895), (900, 900), (902, 902), (904, 906), (908, 908), (910, 929),
  (931, 993), (1008, 1023), (7462, 7466), (7517, 7521), (7526, 7530), (7615, 7615), (7936, 7957),
  (7960, 7965), (7968, 8005), (8008, 8013), (8016, 8023), (8025, 8025), (8027, 8027), (8029, 8029),
  (8031, 8061), (8064, 8116), (8118, 8132), (8134, 8147), (8150, 8155), (8157, 8175), (8178, 8180),
  (8182, 8190), (8486, 8486), (43877, 43877), (65856, 65933), (65952, 65952), (119296, 119361),
  (119365, 119365)]

def latin : List (Nat × Nat) := [
  (65, 90), (97, 122), (170, 170), (186, 186), (192, 214), (216, 246), (248, 696), (736, 740),
  (7424, 7461), (7468, 7516), (7522, 7525), (7531, 7543), (7545, 7614), (7680, 7935), (8305, 8305),
  (8319, 8319), (8336, 8348), (8490, 8491), (8498, 8498), (8526, 8526), (8544, 8584),
  (11360, 11388), (11390, 11391), (42786, 42863), (42865, 42887), (42891, 42954), (42960, 42961),
  (42963, 42963), (42965, 42969), (42997, 42999), (43002, 43007), (43824, 43866), (43872, 43876),
  (43878, 43880), (64256, 64262), (65313, 65338), (65345, 65370), (122624, 122654)]

def cyrillic : List (Nat × Nat) := [
  (1024, 1156), (1159, 1327), (7296, 7304), (7467, 7467), (7544, 7544), (11744, 11775),
  (42560, 42610), (42612, 42651), (42654, 42655), (65070, 65071)]

def han : List (Nat × Nat) := [
  (11904, 11929), (11931, 12019), (12032, 12245), (12293, 12293), (12295, 12295), (12321, 12329),
  (12344, 12347), (13312, 19903), (19968, 40959), (63744, 64109), (64112, 64217), (131072, 173791),
  (173824, 177976), (177984, 178205), (178208, 183969), (183984, 191456), (194560, 195101),
  (196608, 201546)]

def hiragana : List (Nat × Nat) := [
  (12353, 12438), (12445, 12447), (110593, 110593), (110879, 110879), (110928, 110930),
  (127488, 127488)]

def katakana : List (Nat × Nat) := [
  (12443, 12444), (12448, 12538), (12540, 12543), (12784, 12799), (13008, 13054), (13056, 13143),
  (65382, 65391), (65393, 65437), (110576, 110579), (110581, 110587), (110589, 110590),
  (110592, 110592), (110880, 110882), (110948, 110951)]

def arabic : List (Nat × Nat) := [
  (1536, 1546), (1549, 1562), (1564, 1566), (1568, 1599), (1601, 1610), (1622, 1647), (1649, 1756),
  (1758, 1775), (1786, 1791), (1872, 1919), (2160, 2190), (2192, 2193), (2200, 2273), (2275, 2303),
  (64336, 64450), (64467, 64829), (64832, 64911), (64914, 64967), (64975, 64975), (65008, 65019),
  (65021, 65023), (65136, 65140), (65142, 65276), (126464, 126467), (126469, 126495),
  (126497, 126498), (126500, 126500), (126503, 126503), (126505, 126514), (126516, 126519),
  (126521, 126521), (126523, 126523), (126530, 126530), (126535, 126535), (126537, 126537),
  (126539, 126539), (126541, 126543), (126545, 126546), (126548, 126548), (126551, 126551),
  (126553, 126553), (126555, 126555), (126557, 126557), (126559, 126559), (126561, 126562),
  (126564, 126564), (126567, 126570), (126572, 126578), (126580, 126583), (126585, 126588),
  (126590, 126590), (126592, 126601), (126603, 126619), (126625, 126627), (126629, 126633),
  (126635, 126651), (126704, 126705)]

def hebrew : List (Nat × Nat) := [
  (1425, 1479), (1488, 1514), (1519, 1524), (64285, 64310), (64312, 64316), (64318, 64318),
  (64320, 64321), (64323, 64324), (64326, 64335)]

def thai : List (Nat × Nat) := [
  (3585, 3642), (3648, 3675)]

def hangul : List (Nat × Nat) := [
  (4352, 4607), (12334, 12335), (12593, 12686), (12800, 12830), (12896, 12926), (43360, 43388),
  (44032, 55203), (55216, 55238), (55243, 55291), (65440, 65470), (65474, 65479), (65482, 65487),
  (65490, 65495), (65498, 65500)]

def devanagari : List (Nat × Nat) := [
  (2304, 2384), (2387, 2403), (2406, 2431), (43250, 43263)]

def armenian : List (Nat × Nat) := [
  (1329, 1366), (1369, 1418), (1423, 1423), (64275, 64279)]

def georgian : List (Nat × Nat) := [
  (4256, 4293), (4295, 4295), (4301, 4301), (4304, 4347), (4349, 4351), (7312, 7354), (7357, 7359),
  (11520, 11557), (11559, 11559), (11565, 11565)]

end HclEval.Pattern.Script
