/-!
# Tables for the preparation of host names

What letters become when their case and their form do not count, which pairs of characters make one,
how marks are ordered and in which direction characters run, all as Unicode 3.2 has it. The tables
of forms hold the characters below U+2E80 and the forms of width and position from U+FB00 on.
-/

namespace ScimBridge

set_option maxRecDepth 10000 in
/-- Runs of characters that become one character other than their small letter: a run
`(first, count, target)` says that the `count` code points from `first` on become those from
`target` on. -/
def foldRuns : List (Nat × Nat × Nat) := [
  (160, 1, 32), (170, 1, 97), (178, 2, 50), (181, 1, 956), (185, 1, 49), (186, 1, 111),
  (383, 1, 115), (688, 1, 104), (689, 1, 614), (690, 1, 106), (691, 1, 114), (692, 1, 633),
  (693, 1, 635), (694, 1, 641), (695, 1, 119), (696, 1, 121), (736, 1, 611), (737, 1, 108),
  (738, 1, 115), (739, 1, 120), (740, 1, 661), (832, 2, 768), (835, 1, 787), (837, 1, 953),
  (884, 1, 697), (894, 1, 59), (903, 1, 183), (962, 1, 963), (976, 1, 946), (977, 1, 952),
  (978, 1, 965), (979, 1, 973), (980, 1, 971), (981, 1, 966), (982, 1, 960), (1008, 1, 954),
  (1009, 1, 961), (1010, 1, 963), (1013, 1, 949), (1017, 1, 963), (3852, 1, 3851), (7835, 1, 7777),
  (8049, 1, 940), (8051, 1, 941), (8053, 1, 942), (8055, 1, 943), (8057, 1, 972), (8059, 1, 973),
  (8061, 1, 974), (8123, 1, 940), (8126, 1, 953), (8137, 1, 941), (8139, 1, 942), (8147, 1, 912),
  (8155, 1, 943), (8163, 1, 944), (8171, 1, 973), (8175, 1, 96), (8185, 1, 972), (8187, 1, 974),
  (8192, 1, 32), (8193, 1, 32), (8194, 1, 32), (8195, 1, 32), (8196, 1, 32), (8197, 1, 32),
  (8198, 1, 32), (8199, 1, 32), (8200, 1, 32), (8201, 1, 32), (8202, 1, 32), (8209, 1, 8208),
  (8228, 1, 46), (8239, 1, 32), (8287, 1, 32), (8304, 1, 48), (8305, 1, 105), (8308, 6, 52),
  (8314, 1, 43), (8315, 1, 8722), (8316, 1, 61), (8317, 2, 40), (8319, 1, 110), (8320, 10, 48),
  (8330, 1, 43), (8331, 1, 8722), (8332, 1, 61), (8333, 2, 40), (8450, 1, 99), (8455, 1, 603),
  (8458, 2, 103), (8460, 1, 104), (8461, 1, 104), (8462, 1, 104), (8463, 1, 295), (8464, 1, 105),
  (8465, 1, 105), (8466, 1, 108), (8467, 1, 108), (8469, 1, 110), (8473, 3, 112), (8476, 1, 114),
  (8477, 1, 114), (8484, 1, 122), (8488, 1, 122), (8492, 2, 98), (8495, 1, 101), (8496, 2, 101),
  (8499, 1, 109), (8500, 1, 111), (8501, 4, 1488), (8505, 1, 105), (8509, 1, 947), (8510, 1, 947),
  (8511, 1, 960), (8512, 1, 8721), (8517, 1, 100), (8518, 2, 100), (8520, 2, 105), (8544, 1, 105),
  (8548, 1, 118), (8553, 1, 120), (8556, 1, 108), (8557, 2, 99), (8559, 1, 109), (8560, 1, 105),
  (8564, 1, 118), (8569, 1, 120), (8572, 1, 108), (8573, 2, 99), (8575, 1, 109), (9001, 2, 12296),
  (9312, 9, 49), (9398, 26, 97), (9424, 26, 97), (9450, 1, 48), (65073, 1, 8212), (65074, 1, 8211),
  (65075, 1, 95), (65076, 1, 95), (65077, 2, 40), (65079, 1, 123), (65080, 1, 125),
  (65081, 2, 12308), (65083, 2, 12304), (65085, 2, 12298), (65087, 2, 12296), (65089, 4, 12300),
  (65101, 1, 95), (65102, 1, 95), (65103, 1, 95), (65104, 1, 44), (65105, 1, 12289),
  (65106, 1, 46), (65108, 1, 59), (65109, 1, 58), (65110, 1, 63), (65111, 1, 33), (65112, 1, 8212),
  (65113, 2, 40), (65115, 1, 123), (65116, 1, 125), (65117, 2, 12308), (65119, 1, 35),
  (65120, 1, 38), (65121, 2, 42), (65123, 1, 45), (65124, 1, 60), (65125, 1, 62), (65126, 1, 61),
  (65128, 1, 92), (65129, 2, 36), (65131, 1, 64), (65281, 32, 33), (65313, 26, 97),
  (65339, 36, 91), (65375, 2, 10629), (65377, 1, 12290), (65378, 2, 12300), (65380, 1, 12289),
  (65381, 1, 12539), (65382, 1, 12530), (65383, 1, 12449), (65384, 1, 12451), (65385, 1, 12453),
  (65386, 1, 12455), (65387, 1, 12457), (65388, 1, 12515), (65389, 1, 12517), (65390, 1, 12519),
  (65391, 1, 12483), (65392, 1, 12540), (65393, 1, 12450), (65394, 1, 12452), (65395, 1, 12454),
  (65396, 1, 12456), (65397, 2, 12458), (65399, 1, 12461), (65400, 1, 12463), (65401, 1, 12465),
  (65402, 1, 12467), (65403, 1, 12469), (65404, 1, 12471), (65405, 1, 12473), (65406, 1, 12475),
  (65407, 1, 12477), (65408, 1, 12479), (65409, 1, 12481), (65410, 1, 12484), (65411, 1, 12486),
  (65412, 1, 12488), (65413, 6, 12490), (65419, 1, 12498), (65420, 1, 12501), (65421, 1, 12504),
  (65422, 1, 12507), (65423, 5, 12510), (65428, 1, 12516), (65429, 1, 12518), (65430, 6, 12520),
  (65436, 1, 12527), (65437, 1, 12531), (65438, 2, 12441), (65440, 1, 4448), (65441, 2, 4352),
  (65443, 1, 4522), (65444, 1, 4354), (65445, 2, 4524), (65447, 3, 4355), (65450, 6, 4528),
  (65456, 1, 4378), (65457, 3, 4358), (65460, 1, 4385), (65461, 10, 4361), (65474, 6, 4449),
  (65482, 6, 4455), (65490, 6, 4461), (65498, 3, 4467), (65504, 2, 162), (65506, 1, 172),
  (65508, 1, 166), (65509, 1, 165), (65510, 1, 8361), (65512, 1, 9474), (65513, 4, 8592),
  (65517, 1, 9632), (65518, 1, 9675)]

set_option maxRecDepth 10000 in
/-- Characters that become several ones. -/
def longFolds : List (Nat × List Nat) := [
  (168, [32, 776]), (175, [32, 772]), (180, [32, 769]), (184, [32, 807]), (188, [49, 8260, 52]),
  (189, [49, 8260, 50]), (190, [51, 8260, 52]), (223, [115, 115]), (306, [105, 106]),
  (307, [105, 106]), (319, [108, 183]), (320, [108, 183]), (329, [700, 110]), (452, [100, 382]),
  (453, [100, 382]), (454, [100, 382]), (455, [108, 106]), (456, [108, 106]), (457, [108, 106]),
  (458, [110, 106]), (459, [110, 106]), (460, [110, 106]), (497, [100, 122]), (498, [100, 122]),
  (499, [100, 122]), (728, [32, 774]), (729, [32, 775]), (730, [32, 778]), (731, [32, 808]),
  (732, [32, 771]), (733, [32, 779]), (836, [776, 769]), (890, [32, 953]), (900, [32, 769]),
  (901, [32, 776, 769]), (1415, [1381, 1410]), (1653, [1575, 1652]), (1654, [1608, 1652]),
  (1655, [1735, 1652]), (1656, [1610, 1652]), (2392, [2325, 2364]), (2393, [2326, 2364]),
  (2394, [2327, 2364]), (2395, [2332, 2364]), (2396, [2337, 2364]), (2397, [2338, 2364]),
  (2398, [2347, 2364]), (2399, [2351, 2364]), (2524, [2465, 2492]), (2525, [2466, 2492]),
  (2527, [2479, 2492]), (2611, [2610, 2620]), (2614, [2616, 2620]), (2649, [2582, 2620]),
  (2650, [2583, 2620]), (2651, [2588, 2620]), (2654, [2603, 2620]), (2908, [2849, 2876]),
  (2909, [2850, 2876]), (3635, [3661, 3634]), (3763, [3789, 3762]), (3804, [3755, 3737]),
  (3805, [3755, 3745]), (3907, [3906, 4023]), (3917, [3916, 4023]), (3922, [3921, 4023]),
  (3927, [3926, 4023]), (3932, [3931, 4023]), (3945, [3904, 4021]), (3955, [3953, 3954]),
  (3957, [3953, 3956]), (3958, [4018, 3968]), (3959, [4018, 3953, 3968]), (3960, [4019, 3968]),
  (3961, [4019, 3953, 3968]), (3969, [3953, 3968]), (3987, [3986, 4023]), (3997, [3996, 4023]),
  (4002, [4001, 4023]), (4007, [4006, 4023]), (4012, [4011, 4023]), (4025, [3984, 4021]),
  (7834, [97, 702]), (7838, [115, 115]), (8064, [7936, 953]), (8065, [7937, 953]),
  (8066, [7938, 953]), (8067, [7939, 953]), (8068, [7940, 953]), (8069, [7941, 953]),
  (8070, [7942, 953]), (8071, [7943, 953]), (8072, [7936, 953]), (8073, [7937, 953]),
  (8074, [7938, 953]), (8075, [7939, 953]), (8076, [7940, 953]), (8077, [7941, 953]),
  (8078, [7942, 953]), (8079, [7943, 953]), (8080, [7968, 953]), (8081, [7969, 953]),
  (8082, [7970, 953]), (8083, [7971, 953]), (8084, [7972, 953]), (8085, [7973, 953]),
  (8086, [7974, 953]), (8087, [7975, 953]), (8088, [7968, 953]), (8089, [7969, 953]),
  (8090, [7970, 953]), (8091, [7971, 953]), (8092, [7972, 953]), (8093, [7973, 953]),
  (8094, [7974, 953]), (8095, [7975, 953]), (8096, [8032, 953]), (8097, [8033, 953]),
  (8098, [8034, 953]), (8099, [8035, 953]), (8100, [8036, 953]), (8101, [8037, 953]),
  (8102, [8038, 953]), (8103, [8039, 953]), (8104, [8032, 953]), (8105, [8033, 953]),
  (8106, [8034, 953]), (8107, [8035, 953]), (8108, [8036, 953]), (8109, [8037, 953]),
  (8110, [8038, 953]), (8111, [8039, 953]), (8114, [8048, 953]), (8115, [945, 953]),
  (8116, [940, 953]), (8119, [8118, 953]), (8124, [945, 953]), (8125, [32, 787]),
  (8127, [32, 787]), (8128, [32, 834]), (8129, [32, 776, 834]), (8130, [8052, 953]),
  (8131, [951, 953]), (8132, [942, 953]), (8135, [8134, 953]), (8140, [951, 953]),
  (8141, [32, 787, 768]), (8142, [32, 787, 769]), (8143, [32, 787, 834]), (8157, [32, 788, 768]),
  (8158, [32, 788, 769]), (8159, [32, 788, 834]), (8173, [32, 776, 768]), (8174, [32, 776, 769]),
  (8178, [8060, 953]), (8179, [969, 953]), (8180, [974, 953]), (8183, [8182, 953]),
  (8188, [969, 953]), (8189, [32, 769]), (8190, [32, 788]), (8215, [32, 819]), (8229, [46, 46]),
  (8230, [46, 46, 46]), (8243, [8242, 8242]), (8244, [8242, 8242, 8242]), (8246, [8245, 8245]),
  (8247, [8245, 8245, 8245]), (8252, [33, 33]), (8254, [32, 773]), (8263, [63, 63]),
  (8264, [63, 33]), (8265, [33, 63]), (8279, [8242, 8242, 8242, 8242]), (8360, [114, 115]),
  (8448, [97, 47, 99]), (8449, [97, 47, 115]), (8451, [176, 99]), (8453, [99, 47, 111]),
  (8454, [99, 47, 117]), (8457, [176, 102]), (8470, [110, 111]), (8480, [115, 109]),
  (8481, [116, 101, 108]), (8482, [116, 109]), (8531, [49, 8260, 51]), (8532, [50, 8260, 51]),
  (8533, [49, 8260, 53]), (8534, [50, 8260, 53]), (8535, [51, 8260, 53]), (8536, [52, 8260, 53]),
  (8537, [49, 8260, 54]), (8538, [53, 8260, 54]), (8539, [49, 8260, 56]), (8540, [51, 8260, 56]),
  (8541, [53, 8260, 56]), (8542, [55, 8260, 56]), (8543, [49, 8260]), (8545, [105, 105]),
  (8546, [105, 105, 105]), (8547, [105, 118]), (8549, [118, 105]), (8550, [118, 105, 105]),
  (8551, [118, 105, 105, 105]), (8552, [105, 120]), (8554, [120, 105]), (8555, [120, 105, 105]),
  (8561, [105, 105]), (8562, [105, 105, 105]), (8563, [105, 118]), (8565, [118, 105]),
  (8566, [118, 105, 105]), (8567, [118, 105, 105, 105]), (8568, [105, 120]), (8570, [120, 105]),
  (8571, [120, 105, 105]), (8748, [8747, 8747]), (8749, [8747, 8747, 8747]), (8751, [8750, 8750]),
  (8752, [8750, 8750, 8750]), (9321, [49, 48]), (9322, [49, 49]), (9323, [49, 50]),
  (9324, [49, 51]), (9325, [49, 52]), (9326, [49, 53]), (9327, [49, 54]), (9328, [49, 55]),
  (9329, [49, 56]), (9330, [49, 57]), (9331, [50, 48]), (9332, [40, 49, 41]), (9333, [40, 50, 41]),
  (9334, [40, 51, 41]), (9335, [40, 52, 41]), (9336, [40, 53, 41]), (9337, [40, 54, 41]),
  (9338, [40, 55, 41]), (9339, [40, 56, 41]), (9340, [40, 57, 41]), (9341, [40, 49, 48, 41]),
  (9342, [40, 49, 49, 41]), (9343, [40, 49, 50, 41]), (9344, [40, 49, 51, 41]),
  (9345, [40, 49, 52, 41]), (9346, [40, 49, 53, 41]), (9347, [40, 49, 54, 41]),
  (9348, [40, 49, 55, 41]), (9349, [40, 49, 56, 41]), (9350, [40, 49, 57, 41]),
  (9351, [40, 50, 48, 41]), (9352, [49, 46]), (9353, [50, 46]), (9354, [51, 46]), (9355, [52, 46]),
  (9356, [53, 46]), (9357, [54, 46]), (9358, [55, 46]), (9359, [56, 46]), (9360, [57, 46]),
  (9361, [49, 48, 46]), (9362, [49, 49, 46]), (9363, [49, 50, 46]), (9364, [49, 51, 46]),
  (9365, [49, 52, 46]), (9366, [49, 53, 46]), (9367, [49, 54, 46]), (9368, [49, 55, 46]),
  (9369, [49, 56, 46]), (9370, [49, 57, 46]), (9371, [50, 48, 46]), (9372, [40, 97, 41]),
  (9373, [40, 98, 41]), (9374, [40, 99, 41]), (9375, [40, 100, 41]), (9376, [40, 101, 41]),
  (9377, [40, 102, 41]), (9378, [40, 103, 41]), (9379, [40, 104, 41]), (9380, [40, 105, 41]),
  (9381, [40, 106, 41]), (9382, [40, 107, 41]), (9383, [40, 108, 41]), (9384, [40, 109, 41]),
  (9385, [40, 110, 41]), (9386, [40, 111, 41]), (9387, [40, 112, 41]), (9388, [40, 113, 41]),
  (9389, [40, 114, 41]), (9390, [40, 115, 41]), (9391, [40, 116, 41]), (9392, [40, 117, 41]),
  (9393, [40, 118, 41]), (9394, [40, 119, 41]), (9395, [40, 120, 41]), (9396, [40, 121, 41]),
  (9397, [40, 122, 41]), (10764, [8747, 8747, 8747, 8747]), (10868, [58, 58, 61]),
  (10869, [61, 61]), (10870, [61, 61, 61]), (10972, [10973, 824]), (64256, [102, 102]),
  (64257, [102, 105]), (64258, [102, 108]), (64259, [102, 102, 105]), (64260, [102, 102, 108]),
  (64261, [115, 116]), (64262, [115, 116]), (65072, [46, 46]), (65097, [32, 773]),
  (65098, [32, 773]), (65099, [32, 773]), (65100, [32, 773]), (65507, [32, 772])]

set_option maxRecDepth 10000 in
/-- A small letter or a sign and a mark, and the one character that they make. -/
def compositions : List (Nat × Nat × Nat) := [
  (97, 768, 224), (97, 769, 225), (97, 770, 226), (97, 771, 227), (97, 776, 228), (97, 778, 229),
  (99, 807, 231), (101, 768, 232), (101, 769, 233), (101, 770, 234), (101, 776, 235),
  (105, 768, 236), (105, 769, 237), (105, 770, 238), (105, 776, 239), (110, 771, 241),
  (111, 768, 242), (111, 769, 243), (111, 770, 244), (111, 771, 245), (111, 776, 246),
  (117, 768, 249), (117, 769, 250), (117, 770, 251), (117, 776, 252), (121, 769, 253),
  (121, 776, 255), (97, 772, 257), (97, 774, 259), (97, 808, 261), (99, 769, 263), (99, 770, 265),
  (99, 775, 267), (99, 780, 269), (100, 780, 271), (101, 772, 275), (101, 774, 277),
  (101, 775, 279), (101, 808, 281), (101, 780, 283), (103, 770, 285), (103, 774, 287),
  (103, 775, 289), (103, 807, 291), (104, 770, 293), (105, 771, 297), (105, 772, 299),
  (105, 774, 301), (105, 808, 303), (106, 770, 309), (107, 807, 311), (108, 769, 314),
  (108, 807, 316), (108, 780, 318), (110, 769, 324), (110, 807, 326), (110, 780, 328),
  (111, 772, 333), (111, 774, 335), (111, 779, 337), (114, 769, 341), (114, 807, 343),
  (114, 780, 345), (115, 769, 347), (115, 770, 349), (115, 807, 351), (115, 780, 353),
  (116, 807, 355), (116, 780, 357), (117, 771, 361), (117, 772, 363), (117, 774, 365),
  (117, 778, 367), (117, 779, 369), (117, 808, 371), (119, 770, 373), (121, 770, 375),
  (122, 769, 378), (122, 775, 380), (122, 780, 382), (111, 795, 417), (117, 795, 432),
  (97, 780, 462), (105, 780, 464), (111, 780, 466), (117, 780, 468), (252, 772, 470),
  (252, 769, 472), (252, 780, 474), (252, 768, 476), (228, 772, 479), (551, 772, 481),
  (230, 772, 483), (103, 780, 487), (107, 780, 489), (111, 808, 491), (491, 772, 493),
  (658, 780, 495), (106, 780, 496), (103, 769, 501), (110, 768, 505), (229, 769, 507),
  (230, 769, 509), (248, 769, 511), (97, 783, 513), (97, 785, 515), (101, 783, 517),
  (101, 785, 519), (105, 783, 521), (105, 785, 523), (111, 783, 525), (111, 785, 527),
  (114, 783, 529), (114, 785, 531), (117, 783, 533), (117, 785, 535), (115, 806, 537),
  (116, 806, 539), (104, 780, 543), (97, 775, 551), (101, 807, 553), (246, 772, 555),
  (245, 772, 557), (111, 775, 559), (559, 772, 561), (121, 772, 563), (168, 769, 901),
  (970, 769, 912), (945, 769, 940), (949, 769, 941), (951, 769, 942), (953, 769, 943),
  (971, 769, 944), (953, 776, 970), (965, 776, 971), (959, 769, 972), (965, 769, 973),
  (969, 769, 974), (978, 769, 979), (978, 776, 980), (1080, 774, 1081), (1077, 768, 1104),
  (1077, 776, 1105), (1075, 769, 1107), (1110, 776, 1111), (1082, 769, 1116), (1080, 768, 1117),
  (1091, 774, 1118), (1141, 783, 1143), (1078, 774, 1218), (1072, 774, 1233), (1072, 776, 1235),
  (1077, 774, 1239), (1241, 776, 1243), (1078, 776, 1245), (1079, 776, 1247), (1080, 772, 1251),
  (1080, 776, 1253), (1086, 776, 1255), (1257, 776, 1259), (1101, 776, 1261), (1091, 772, 1263),
  (1091, 776, 1265), (1091, 779, 1267), (1095, 776, 1269), (1099, 776, 1273), (1575, 1619, 1570),
  (1575, 1620, 1571), (1608, 1620, 1572), (1575, 1621, 1573), (1610, 1620, 1574),
  (1749, 1620, 1728), (1729, 1620, 1730), (1746, 1620, 1747), (2344, 2364, 2345),
  (2352, 2364, 2353), (2355, 2364, 2356), (2503, 2494, 2507), (2503, 2519, 2508),
  (2887, 2902, 2888), (2887, 2878, 2891), (2887, 2903, 2892), (2962, 3031, 2964),
  (3014, 3006, 3018), (3015, 3006, 3019), (3014, 3031, 3020), (3142, 3158, 3144),
  (3263, 3285, 3264), (3270, 3285, 3271), (3270, 3286, 3272), (3270, 3266, 3274),
  (3274, 3285, 3275), (3398, 3390, 3402), (3399, 3390, 3403), (3398, 3415, 3404),
  (3545, 3530, 3546), (3545, 3535, 3548), (3548, 3530, 3549), (3545, 3551, 3550),
  (4133, 4142, 4134), (97, 805, 7681), (98, 775, 7683), (98, 803, 7685), (98, 817, 7687),
  (231, 769, 7689), (100, 775, 7691), (100, 803, 7693), (100, 817, 7695), (100, 807, 7697),
  (100, 813, 7699), (275, 768, 7701), (275, 769, 7703), (101, 813, 7705), (101, 816, 7707),
  (553, 774, 7709), (102, 775, 7711), (103, 772, 7713), (104, 775, 7715), (104, 803, 7717),
  (104, 776, 7719), (104, 807, 7721), (104, 814, 7723), (105, 816, 7725), (239, 769, 7727),
  (107, 769, 7729), (107, 803, 7731), (107, 817, 7733), (108, 803, 7735), (7735, 772, 7737),
  (108, 817, 7739), (108, 813, 7741), (109, 769, 7743), (109, 775, 7745), (109, 803, 7747),
  (110, 775, 7749), (110, 803, 7751), (110, 817, 7753), (110, 813, 7755), (245, 769, 7757),
  (245, 776, 7759), (333, 768, 7761), (333, 769, 7763), (112, 769, 7765), (112, 775, 7767),
  (114, 775, 7769), (114, 803, 7771), (7771, 772, 7773), (114, 817, 7775), (115, 775, 7777),
  (115, 803, 7779), (347, 775, 7781), (353, 775, 7783), (7779, 775, 7785), (116, 775, 7787),
  (116, 803, 7789), (116, 817, 7791), (116, 813, 7793), (117, 804, 7795), (117, 816, 7797),
  (117, 813, 7799), (361, 769, 7801), (363, 776, 7803), (118, 771, 7805), (118, 803, 7807),
  (119, 768, 7809), (119, 769, 7811), (119, 776, 7813), (119, 775, 7815), (119, 803, 7817),
  (120, 775, 7819), (120, 776, 7821), (121, 775, 7823), (122, 770, 7825), (122, 803, 7827),
  (122, 817, 7829), (104, 817, 7830), (116, 776, 7831), (119, 778, 7832), (121, 778, 7833),
  (383, 775, 7835), (97, 803, 7841), (97, 777, 7843), (226, 769, 7845), (226, 768, 7847),
  (226, 777, 7849), (226, 771, 7851), (7841, 770, 7853), (259, 769, 7855), (259, 768, 7857),
  (259, 777, 7859), (259, 771, 7861), (7841, 774, 7863), (101, 803, 7865), (101, 777, 7867),
  (101, 771, 7869), (234, 769, 7871), (234, 768, 7873), (234, 777, 7875), (234, 771, 7877),
  (7865, 770, 7879), (105, 777, 7881), (105, 803, 7883), (111, 803, 7885), (111, 777, 7887),
  (244, 769, 7889), (244, 768, 7891), (244, 777, 7893), (244, 771, 7895), (7885, 770, 7897),
  (417, 769, 7899), (417, 768, 7901), (417, 777, 7903), (417, 771, 7905), (417, 803, 7907),
  (117, 803, 7909), (117, 777, 7911), (432, 769, 7913), (432, 768, 7915), (432, 777, 7917),
  (432, 771, 7919), (432, 803, 7921), (121, 768, 7923), (121, 803, 7925), (121, 777, 7927),
  (121, 771, 7929), (945, 787, 7936), (945, 788, 7937), (7936, 768, 7938), (7937, 768, 7939),
  (7936, 769, 7940), (7937, 769, 7941), (7936, 834, 7942), (7937, 834, 7943), (949, 787, 7952),
  (949, 788, 7953), (7952, 768, 7954), (7953, 768, 7955), (7952, 769, 7956), (7953, 769, 7957),
  (951, 787, 7968), (951, 788, 7969), (7968, 768, 7970), (7969, 768, 7971), (7968, 769, 7972),
  (7969, 769, 7973), (7968, 834, 7974), (7969, 834, 7975), (953, 787, 7984), (953, 788, 7985),
  (7984, 768, 7986), (7985, 768, 7987), (7984, 769, 7988), (7985, 769, 7989), (7984, 834, 7990),
  (7985, 834, 7991), (959, 787, 8000), (959, 788, 8001), (8000, 768, 8002), (8001, 768, 8003),
  (8000, 769, 8004), (8001, 769, 8005), (965, 787, 8016), (965, 788, 8017), (8016, 768, 8018),
  (8017, 768, 8019), (8016, 769, 8020), (8017, 769, 8021), (8016, 834, 8022), (8017, 834, 8023),
  (969, 787, 8032), (969, 788, 8033), (8032, 768, 8034), (8033, 768, 8035), (8032, 769, 8036),
  (8033, 769, 8037), (8032, 834, 8038), (8033, 834, 8039), (945, 768, 8048), (949, 768, 8050),
  (951, 768, 8052), (953, 768, 8054), (959, 768, 8056), (965, 768, 8058), (969, 768, 8060),
  (7936, 837, 8064), (7937, 837, 8065), (7938, 837, 8066), (7939, 837, 8067), (7940, 837, 8068),
  (7941, 837, 8069), (7942, 837, 8070), (7943, 837, 8071), (7968, 837, 8080), (7969, 837, 8081),
  (7970, 837, 8082), (7971, 837, 8083), (7972, 837, 8084), (7973, 837, 8085), (7974, 837, 8086),
  (7975, 837, 8087), (8032, 837, 8096), (8033, 837, 8097), (8034, 837, 8098), (8035, 837, 8099),
  (8036, 837, 8100), (8037, 837, 8101), (8038, 837, 8102), (8039, 837, 8103), (945, 774, 8112),
  (945, 772, 8113), (8048, 837, 8114), (945, 837, 8115), (940, 837, 8116), (945, 834, 8118),
  (8118, 837, 8119), (168, 834, 8129), (8052, 837, 8130), (951, 837, 8131), (942, 837, 8132),
  (951, 834, 8134), (8134, 837, 8135), (8127, 768, 8141), (8127, 769, 8142), (8127, 834, 8143),
  (953, 774, 8144), (953, 772, 8145), (970, 768, 8146), (953, 834, 8150), (970, 834, 8151),
  (8190, 768, 8157), (8190, 769, 8158), (8190, 834, 8159), (965, 774, 8160), (965, 772, 8161),
  (971, 768, 8162), (961, 787, 8164), (961, 788, 8165), (965, 834, 8166), (971, 834, 8167),
  (168, 768, 8173), (8060, 837, 8178), (969, 837, 8179), (974, 837, 8180), (969, 834, 8182),
  (8182, 837, 8183), (8592, 824, 8602), (8594, 824, 8603), (8596, 824, 8622), (8656, 824, 8653),
  (8660, 824, 8654), (8658, 824, 8655), (8707, 824, 8708), (8712, 824, 8713), (8715, 824, 8716),
  (8739, 824, 8740), (8741, 824, 8742), (8764, 824, 8769), (8771, 824, 8772), (8773, 824, 8775),
  (8776, 824, 8777), (61, 824, 8800), (8801, 824, 8802), (8781, 824, 8813), (60, 824, 8814),
  (62, 824, 8815), (8804, 824, 8816), (8805, 824, 8817), (8818, 824, 8820), (8819, 824, 8821),
  (8822, 824, 8824), (8823, 824, 8825), (8826, 824, 8832), (8827, 824, 8833), (8834, 824, 8836),
  (8835, 824, 8837), (8838, 824, 8840), (8839, 824, 8841), (8866, 824, 8876), (8872, 824, 8877),
  (8873, 824, 8878), (8875, 824, 8879), (8828, 824, 8928), (8829, 824, 8929), (8849, 824, 8930),
  (8850, 824, 8931), (8882, 824, 8938), (8883, 824, 8939), (8884, 824, 8940), (8885, 824, 8941),
  (12363, 12441, 12364), (12365, 12441, 12366), (12367, 12441, 12368), (12369, 12441, 12370),
  (12371, 12441, 12372), (12373, 12441, 12374), (12375, 12441, 12376), (12377, 12441, 12378),
  (12379, 12441, 12380), (12381, 12441, 12382), (12383, 12441, 12384), (12385, 12441, 12386),
  (12388, 12441, 12389), (12390, 12441, 12391), (12392, 12441, 12393), (12399, 12441, 12400),
  (12399, 12442, 12401), (12402, 12441, 12403), (12402, 12442, 12404), (12405, 12441, 12406),
  (12405, 12442, 12407), (12408, 12441, 12409), (12408, 12442, 12410), (12411, 12441, 12412),
  (12411, 12442, 12413), (12358, 12441, 12436), (12445, 12441, 12446), (12459, 12441, 12460),
  (12461, 12441, 12462), (12463, 12441, 12464), (12465, 12441, 12466), (12467, 12441, 12468),
  (12469, 12441, 12470), (12471, 12441, 12472), (12473, 12441, 12474), (12475, 12441, 12476),
  (12477, 12441, 12478), (12479, 12441, 12480), (12481, 12441, 12482), (12484, 12441, 12485),
  (12486, 12441, 12487), (12488, 12441, 12489), (12495, 12441, 12496), (12495, 12442, 12497),
  (12498, 12441, 12499), (12498, 12442, 12500), (12501, 12441, 12502), (12501, 12442, 12503),
  (12504, 12441, 12505), (12504, 12442, 12506), (12507, 12441, 12508), (12507, 12442, 12509),
  (12454, 12441, 12532), (12527, 12441, 12535), (12528, 12441, 12536), (12529, 12441, 12537),
  (12530, 12441, 12538), (12541, 12441, 12542)]

set_option maxRecDepth 10000 in
/-- Runs `(first, count, class)` of marks: a mark goes before one of a higher class. -/
def markRuns : List (Nat × Nat × Nat) := [
  (768, 21, 230), (789, 1, 232), (790, 4, 220), (794, 1, 232), (795, 1, 216), (796, 5, 220),
  (801, 2, 202), (803, 4, 220), (807, 2, 202), (809, 11, 220), (820, 5, 1), (825, 4, 220),
  (829, 8, 230), (837, 1, 240), (838, 1, 230), (839, 3, 220), (842, 3, 230), (845, 2, 220),
  (864, 2, 234), (866, 1, 233), (867, 13, 230), (1155, 4, 230), (1425, 1, 220), (1426, 4, 230),
  (1430, 1, 220), (1431, 3, 230), (1434, 1, 222), (1435, 1, 220), (1436, 6, 230), (1443, 5, 220),
  (1448, 2, 230), (1450, 1, 220), (1451, 2, 230), (1453, 1, 222), (1454, 1, 228), (1455, 1, 230),
  (1456, 1, 10), (1457, 1, 11), (1458, 1, 12), (1459, 1, 13), (1460, 1, 14), (1461, 1, 15),
  (1462, 1, 16), (1463, 1, 17), (1464, 1, 18), (1465, 1, 19), (1467, 1, 20), (1468, 1, 21),
  (1469, 1, 22), (1471, 1, 23), (1473, 1, 24), (1474, 1, 25), (1476, 1, 230), (1611, 1, 27),
  (1612, 1, 28), (1613, 1, 29), (1614, 1, 30), (1615, 1, 31), (1616, 1, 32), (1617, 1, 33),
  (1618, 1, 34), (1619, 2, 230), (1621, 1, 220), (1648, 1, 35), (1750, 7, 230), (1759, 4, 230),
  (1763, 1, 220), (1764, 1, 230), (1767, 2, 230), (1770, 1, 220), (1771, 2, 230), (1773, 1, 220),
  (1809, 1, 36), (1840, 1, 230), (1841, 1, 220), (1842, 2, 230), (1844, 1, 220), (1845, 2, 230),
  (1847, 3, 220), (1850, 1, 230), (1851, 2, 220), (1853, 1, 230), (1854, 1, 220), (1855, 3, 230),
  (1858, 1, 220), (1859, 1, 230), (1860, 1, 220), (1861, 1, 230), (1862, 1, 220), (1863, 1, 230),
  (1864, 1, 220), (1865, 2, 230), (2364, 1, 7), (2381, 1, 9), (2385, 1, 230), (2386, 1, 220),
  (2387, 2, 230), (2492, 1, 7), (2509, 1, 9), (2620, 1, 7), (2637, 1, 9), (2748, 1, 7),
  (2765, 1, 9), (2876, 1, 7), (2893, 1, 9), (3021, 1, 9), (3149, 1, 9), (3157, 1, 84),
  (3158, 1, 91), (3277, 1, 9), (3405, 1, 9), (3530, 1, 9), (3640, 2, 103), (3642, 1, 9),
  (3656, 4, 107), (3768, 2, 118), (3784, 4, 122), (3864, 2, 220), (3893, 1, 220), (3895, 1, 220),
  (3897, 1, 216), (3953, 1, 129), (3954, 1, 130), (3956, 1, 132), (3962, 4, 130), (3968, 1, 130),
  (3970, 2, 230), (3972, 1, 9), (3974, 2, 230), (4038, 1, 220), (4151, 1, 7), (4153, 1, 9),
  (5908, 1, 9), (5940, 1, 9), (6098, 1, 9), (6313, 1, 228), (8400, 2, 230), (8402, 2, 1),
  (8404, 4, 230), (8408, 3, 1), (8411, 2, 230), (8417, 1, 230), (8421, 2, 1), (8423, 1, 230),
  (8424, 1, 220), (8425, 1, 230), (8426, 1, 1)]

set_option maxRecDepth 10000 in
/-- Lengths of the runs of code points outside and inside the characters that run from right to
left, in turn. -/
def rightToLeftRuns : List Nat := [
  1470, 1, 1, 1, 2, 1, 12, 27, 5, 5, 38, 1, 3, 1, 1, 26, 5, 11, 34, 3, 1, 101, 7, 1, 7, 2, 19, 5,
  1, 14, 2, 1, 1, 27, 83, 38, 11, 1, 6237, 1, 56077, 1, 1, 10, 1, 13, 1, 5, 1, 1, 1, 2, 1, 2, 1,
  108, 33, 363, 18, 64, 2, 54, 40, 13, 115, 5, 1, 135]

set_option maxRecDepth 10000 in
/-- Lengths of the runs of code points outside and inside the characters that run from left to
right, in turn. -/
def leftToRightRuns : List Nat := [
  65, 26, 6, 26, 47, 1, 10, 1, 4, 1, 5, 23, 1, 31, 1, 297, 1, 18, 28, 94, 2, 9, 2, 7, 14, 2, 14, 5,
  9, 1, 139, 1, 11, 1, 1, 3, 1, 1, 1, 20, 1, 44, 1, 38, 10, 131, 7, 69, 1, 38, 2, 2, 6, 16, 33, 38,
  2, 7, 1, 39, 1, 1, 889, 1, 1, 53, 3, 4, 8, 4, 3, 1, 7, 10, 2, 13, 17, 2, 1, 8, 2, 2, 2, 22, 1, 7,
  1, 1, 3, 4, 4, 3, 6, 2, 2, 2, 10, 1, 4, 2, 1, 3, 4, 12, 2, 7, 10, 6, 4, 2, 2, 22, 1, 7, 1, 2, 1,
  2, 1, 2, 4, 3, 24, 4, 1, 1, 7, 10, 2, 3, 14, 1, 1, 7, 1, 1, 1, 3, 1, 22, 1, 7, 1, 2, 1, 5, 3, 4,
  8, 1, 1, 2, 3, 1, 15, 1, 5, 10, 18, 2, 1, 8, 2, 2, 2, 22, 1, 7, 1, 2, 2, 4, 3, 2, 1, 1, 6, 2, 2,
  2, 10, 1, 4, 2, 1, 3, 4, 11, 18, 1, 1, 6, 3, 3, 1, 4, 3, 2, 1, 1, 1, 2, 3, 2, 3, 3, 3, 8, 1, 3,
  4, 2, 1, 2, 3, 3, 1, 3, 10, 1, 15, 12, 14, 3, 1, 8, 1, 3, 1, 23, 1, 10, 1, 5, 7, 4, 27, 2, 4, 10,
  18, 2, 1, 8, 1, 3, 1, 23, 1, 10, 1, 5, 4, 1, 1, 5, 2, 2, 1, 2, 9, 2, 7, 1, 1, 2, 4, 10, 18, 2, 1,
  8, 1, 3, 1, 23, 1, 16, 4, 3, 5, 3, 1, 3, 10, 1, 8, 2, 4, 10, 18, 2, 1, 18, 3, 24, 1, 9, 1, 1, 2,
  7, 8, 3, 6, 8, 18, 3, 12, 48, 1, 2, 12, 7, 8, 13, 37, 2, 1, 1, 2, 2, 1, 1, 2, 1, 6, 4, 1, 7, 1,
  3, 1, 1, 1, 1, 2, 2, 1, 4, 1, 2, 9, 1, 2, 5, 1, 1, 9, 10, 2, 2, 34, 24, 2, 27, 1, 1, 1, 1, 5, 10,
  1, 34, 20, 1, 5, 1, 2, 4, 50, 8, 1, 6, 2, 1, 48, 34, 1, 5, 1, 2, 1, 1, 4, 1, 6, 1, 7, 24, 72, 38,
  10, 41, 2, 1, 4, 90, 5, 68, 5, 82, 6, 7, 1, 63, 1, 1, 1, 4, 2, 7, 1, 1, 1, 4, 2, 39, 1, 1, 1, 4,
  2, 31, 1, 1, 1, 4, 2, 7, 1, 1, 1, 4, 2, 7, 1, 7, 1, 23, 1, 31, 1, 1, 1, 4, 2, 7, 1, 39, 1, 19, 6,
  28, 35, 85, 12, 630, 10, 26, 5, 81, 15, 13, 1, 4, 14, 18, 3, 2, 9, 18, 14, 13, 1, 3, 15, 55, 7,
  8, 1, 2, 11, 7, 1, 1, 3, 10, 38, 10, 6, 88, 8, 41, 1367, 156, 4, 90, 6, 22, 2, 6, 2, 38, 2, 6, 2,
  8, 1, 1, 1, 1, 1, 1, 1, 31, 2, 53, 1, 7, 1, 1, 3, 3, 1, 7, 3, 4, 2, 6, 4, 13, 5, 3, 1, 7, 17, 1,
  98, 1, 13, 1, 130, 1, 4, 1, 2, 10, 1, 1, 3, 5, 6, 1, 1, 1, 1, 1, 1, 4, 1, 3, 1, 7, 3, 3, 5, 5,
  22, 36, 434, 69, 26, 1, 262, 78, 2843, 3, 25, 9, 7, 5, 2, 5, 4, 86, 6, 3, 1, 90, 1, 4, 5, 40, 4,
  94, 1, 40, 56, 45, 3, 36, 28, 28, 3, 50, 15, 12, 4, 47, 1, 119, 4, 99, 2, 31, 1, 6582, 74, 20902,
  90, 1165, 1907, 11172, 2140, 6702, 2, 59, 149, 7, 12, 5, 1033, 26, 6, 26, 11, 89, 3, 6, 2, 6, 2,
  6, 2, 3, 803, 31, 1, 4, 12, 27, 181, 38, 2, 38, 52146, 246, 10, 39, 3, 61, 3, 9, 16, 2, 7, 30, 4,
  48, 546, 85, 1, 71, 1, 2, 2, 1, 2, 2, 2, 4, 1, 12, 1, 1, 1, 4, 1, 2, 1, 65, 1, 4, 2, 8, 1, 7, 1,
  28, 1, 4, 1, 5, 1, 1, 3, 7, 1, 338, 4, 290, 10294, 42711, 20777, 542, 787938, 65534, 2, 65534]

end ScimBridge
