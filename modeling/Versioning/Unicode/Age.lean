import Versioning.Unicode.Runs

/-!
# Ages

The standard has grown from version to version. The *age* of a character is the version in which
it was assigned; a pattern asks for all characters that were assigned up to a version.

* `ages` are the sets of characters that were assigned up to each version.
-/

namespace Versioning.Unicode

/-- The runs of equal age; the marks are those of `versions`. -/
def ageRuns : RunTable :=
  .ofLines
    ["502a4d30a8d1f1g18d3g11h14i89a5d2g47a1d10a5d17g70a9d1f8g5h3g2a1d13f4j2a2j2-1a3i1a1p4-7a1-1a",
     "1-20a1-44a1j7a1d2f1a1d1a1d1a1d1a1d18a2e1f5g4h1d12a1d66a1d12a1d41a1j2d2f4d53a2f2a2f2a2f1i28",
     "a2d8a2h2a6i16f4i16j2k2l8p1-38a2-7a1t39a1t1a1d2-2p1m1-17b1h13b10a1i9a1b3h8-27a4-1t5a11-4g1m",
     "1p5j1h1a9g5j1a1o1x1h1a1l26a5j19a3d3g6h1l14a2f72a2d5a1d15a1d30a2g10a5d1g14d1-30d3g27d2-3g30",
     "h18j49d1f14-59i2-3t46k2-15k1-28l2-1l1-11s5-31x1-2x5-1A8x1m1p11m6p2q1x8r10w11x1t15r1q27m1p1",
     "k3a1g53a2l18a1k1l5a1k2l25a2j5l1p2k2i1h2i1p3a1-8a2-2a2-22a1-7a1-1a3-4a2-1a1g7a2-2a2-3a1h8-1",
     "a4-2a1-5a2-21a1k2s1t2-1g1a1g1-6a4-2a2-22a1-7a1-2a1-2a1-2a2-1a1-5a4-2a2-3a3-1j7-4a1-1a7-15a",
     "1j1t10-3a1-7a1g1a1-3a1-22a1-7a1-2a1-5a2-10a1-3a1-3a2-1a15-1a3g2-10a1m1g7-1q6s1-3a1-8a2-2a2",
     "-22a1-7a1-2a1-1g4a2-8a1j2-2a2-3a7-1w2a4-2a1-3a2j2-11a1g6l10-2a1-6a3-3a1-4a3-2a1-1a1-2a3-2a",
     "3-3a3-8a1h3a4-5a3-3a1-4a2-1j6-1a14-1h12a8g5-1p3a1t8a1-3a1-23a1-10a1p5a2-1x1j7a1-3a1-4a7-2a",
     "1-2j1q2-1x2-2a2j2-10a7-1u8j1r1p2a1t8a1-3a1-23a1-10a1-5a2-2g7a1-3a1-4a7-2a6-1x1a1-2a2i2-10a",
     "1-2i1y12-1s1p2a1w8a1-3a1-23a1l16a1l2s1j6a1j1-3a1-4a1l1r4-3r1a7r1q2a2j2-10a6j3r7j1-1w2d1-18",
     "d3-24d1-9d1-1d2-7d3-1d4-6d1-1d1-8d6-10p2-3d12-58a4-29a37-2a1-1a1-1u2a1u1a1-1u1a6u4a1u7a1u3",
     "a1-1a1-1a2u2a1u13a1u3a2-5a1-1a1-6a1y1-10a2-2a2m32-72b1-33b1d2j4-27b4l6b1d1b1-21b3d7b1d1b3d",
     "1-15d1-1j1d2h3j4k2l37-34d1j5d1j2d1j7d3j4d6j26d64j4k2j38a1-1m5-1m2-39a2f2h1a1h3m90a5k68a5k8",
     "2a6k7d1h63d1h1d1-4d2-7d1-1d1-4d2-39d1h1d1-4d2-31d1h1d1-4d2-7d1-1d1-4d2-7d1h7d1-23d1h31d1h1",
     "d1-4d2-7d1h39d1h19d2-2l2h28d3-26h6-85d1q2-6q2-1k630d9k29d3-81d8p7-13f1x7f1x9-1x23f9-20f12-",
     "13f1-3f1-2f12-93d1g2-10d6-10g6-15d1x10d6-88d1t7-42d1j5-70k10-29g2p1-12g4-12g4-1g3-42g2-5g1",
     "1-42h2k4-26h6-10h1k3-2h32g28h2-2h63k1-29k2-11k6-10k6-14k2-15p2w14x49-76i1x1-2A45i2x1A43j3m",
     "12j6m52l8-4l56j3-15j3-51j9r2A5-43t2-3t8m8-35k4m1s2p1u5-108g88h7i28j15p4s1x1r1l1k2i155a1b4j",
     "90a6j22a2-6a2-38a2-6a2-8a1-1a1-1a1-1a1-31a2-53a1-15a1-14a2-6a1-19a2-3a1-9a1-47a1d23a1f6d5f",
     "2g2h1f7h5f1j1-4o7a1f2-27a1-5h8l3-11a1b1c3d2f4h3k1l1n3p1q1s1x15-18a2d7f1h4i1j15-57a2d1g1h15",
     "f1h2i1j3k48a1d1i4j1k2q4-91a9d12f242a14f1a1d121a1d1f30d52f2g11h12i1k11l7p4r1s37a2d3A22-11a2",
     "1-139a20f1g150a10f80a8d8f20a2g2f1h1d86a2d12f2h10f8g11h1j2k2g16h1i10j3k4j10k1l19k1l1k4l24k1",
     "p4a1l4a2l28a1l35a1l1a1l4a3l1a1k7a2l7a14f31a3l24a1l14a1l7h4i1m1j1m2l28f4j16f256d512f14g6h7i",
     "5j4i41j3p5j5k26p2-32p1-1w34p3t12p1u8p1s25t4q15t1u47h1x47h1x13i3j1k3j4i6j2k107h7k2m5-45h1-1",
     "m5-1m2-54h2m7-1h1l14-1l23h9-7h1-7h1-7h1-7h1-7h1-7h1-7h1-7h1-32j24h4j2h19j1k10m7p2r5s5t1u3w",
     "11x34-26d1-89d12-214d26-12d4z56a3d3f1d1a1-84a2f2-6a2f94a1f5-40a1j1s1t1-94a1-16a24d3l5w16h2",
     "0j2A9-1z16f29a2g1-36a12k1g15f28a2g1h50a15f12a4g47a1v119a4g99a2g31a1g6582d10w64g20902a22h8j",
     "8k1m9q21s5t13w3x1165d3-18d2f16d1f12d1f3d1f1d9-48k300j20-32j2l18j8m28j6p1q1m88k8-23h4i5j2i1",
     "07j2l1q2l2m12p10l1m3p1r1t2p6q2t6u2x5u4w3A2-2x1-1x1-5x3A21-3x2w1p2m1l5j44h1w3-10k6-56i8-69j",
     "1r8-12j6-28k2q2t84j11-1j29k3-78k1-11k4-2k31p1-55j9-14j2-10j2-4j28k4p67k24-5k23m10-6l2-6l2-",
     "6l9-7l1-7l1-48p4q2p2u4w4-80q46k2-10k6-11172b12-23k4-49k2052-6702a2m59f3k2-106h38-7a12-5a5-",
     "1d25a1-5a1-1a1-2a1-2a1-108a16l1x16-365a16x64a2-54a7-1x32e12a1f1g2x16f10h6-4a3j7p2q21a2f2g1",
     "0a1-19a1-4a4-3a1f1a1-135a2-1a1-94a2f94a3-6a2-6a2-6a2-3a3-7a1-7a10-3d1c3a12g1-26g1-19g1-2g1",
     "-15g2-14g34-123g5-3g4-45g3-9g75h2p2r1-12j1w3-1p47-46j130-29j3-49j15-28p4-31e1p4e9-3s27e5-4",
     "3p5-30g1-1g36h4-14h42-38e2g38e80g2-10g6-36r4-36r4-40p8-52p11-1p11x1-15x1-7x1-2x1-11x1-15x1",
     "-7x1-2x3-52A12-311p9-22p10-8p24-6x1-42x1-9x69-6g2-1g1-44g1-2g3-1g2-1g22k1-9k63p8-9p48-19q1",
     "-2q5-5q26i2k3-1i26j5-1j64-56m4-2q2m16q2-46q4h1-2h5-8h1-3h1-27h2t2-3h4-9h1t7-9h7-32k32p32-3",
     "9p4-12p9-54k3-29k2-27k5-8k18p7-4p12-7p80-73k55-51q13-51q7-6q40t8-10t6-38A3-29A8-2A208-31k1",
     "-42w1-3w2-2w16-3A55-1A3y40t8-42t22-26x38-28w20-23u9-78l4-30l6x9-1p66k1x10-1t2-25m7-10m6-53",
     "m1-14m3t1w8-39p9-73m4q1p2w10m1p5q1-20p11-18p1-43p1r3y62-7q1-1q1-4q1-15q1-11q6-59p5-10p6-1q",
     "3p1-8p2-2p2-22p1-7p1-2p1-5p1-1t9p2-2p2-3p2-1q6-1p5-7p2-7p3-5p11-10A1-1A2-1A1-38A1-10A1-1A2",
     "-1A1-4A1-10A1-2A8-2A29-90r1w1r1-1r1t1u2w30-72p8-10p166-54p2-18p20q34-69p11-10p6-13r19-56m1",
     "u1x6-10m6-20A28-26q1t2-15q4-16q7x185-60t100-83p12-1p7w2-1w2-8w1-2w1-30w1-2w2-12w9-10w70-8u",
     "2-46u2-11u27-72s8-52s2u23s1t5s13-16x57p7-10y182-34A14-10A6-9r1-45r1-14r10-29r3-32r2-22r1-1",
     "4r73-7s1-2s1-44s3-1s1-2s1-9s8-10s6-6t1-2t1-37t1-2t1-6t7-10t310-25t7-17y1-41y3-28y1A85-1w15",
     "-50u13-1u879i42p1q102-99i12p1-4i1p11-196q2636-99x13-1071k1y9u29y10-3995A5-583q6841-58A1734",
     "-569l7-31p1-10p4-2p79x1-10x6-30p2-6p10-70p10-10p1-7p1-21p5-19p432-58A198-91t101-69m6u4-1u4",
     "7m9u7-17m64-1r1s2u1w11-2w14-6125r5t6u8-755r483w41-1A9w8935-4x1-7x1-2x1-2l285s4x15-1y29-3u2",
     "-1y14-4u8-396s2308-107p5-13p3-9p7-10p2-8p3932-250A6-436A76-46x2-23x9-116x60-246e10-39e2-1j",
     "180e11q2x21-70h122-20y12-20t12-87g9-18i7t135-85e1-71e1-2e2-1e2-2e2-4e1-12e1-1e1-4e1g2e1-65",
     "e1-4e2-8e1-7e1-28e1-4e1-5e1-1e3-7e1-338e2h2-290e2i2-50e652q15-5q1-15q1104-31x6-6y213-7r1-1",
     "7r2-7r1-2r1-5r5-62y33-1y112-45u3-14u2-10u4-2u320-31x17-58u5-1u464-42y214-43A4-1A480-7x1-4x",
     "1-2x1-15x1-197p2-16p41-75r1u4-10r4-2r785-68t76-61u194-4m1-27m1-2m1-1m2-1m1-10m1-4m1-1m1-1m",
     "6-1m4-1m1-1m1-1m1-3m1-2m1-1m2-1m1-1m1-1m1-1m1-1m1-2m1-1m2-4m1-7m1-4m1-4m1-1m1-10m1-17m5-3m",
     "1-5m1-17m52-2m270-44j4-100j12-15l2-14l1p1-15l1-15l22p10-11k2p3w31k1t1l1k11l1k1l1k2l1k3l1k3",
     "l5k8l1k7l1k10l2m1u3w9l1k1l2k2l1k10l4k2l1k10l18r1w56-26l1k2l13-34k9l1r4-9k7-2l14-6s154-33l1",
     "2p3q6l1p70l1p2q20l12p37l1p5l4p5q12p17l7p8q63l1p1l1p182l1p4l2p1q62l2p4m7p5q24l18p1r41p1r86p",
     "5l1m16l1m3l1m1l1m1l1m1l1m3l1m6l2m4l1m1l2m4l1m12l2p2q11l48p70l10p1q2r2s1u2w4-1y3x13p3-4p3r2",
     "s1t1u2w3-116l3y4-5y85p4t1y6-12u4-1x15-12p4-56p8-10p6-40p8-30p2-2w10A4-2A62-12s1w3u9q6r1s8r",
     "8s1r2s12r1u12r1s3t15r13s5t1u1w4t2w1x1t1u4t5q13r6s11t2w6u3w2u10t6u1q2t8u1w1x3u23s25t84u12-1",
     "4t2-4u1w3y3u2x3-3u4w2y1A5-1A6u19w4x3y7w4x3y1A1y3w3x1A7-2y7w3x2y1A2-1A8x1y1A6-7x2y7-147w1-5",
     "5w37A10w1028-2b42711e7w2x32-4149k4x1y6-222l2-5762q14-7473s15-622z2466-542e1504-2b4939w5-41",
     "92y56398-2b65534-2b65534-2b65534-2b65534-2b65534-2b65534-2b65534-2b65534-2b65534-2b65534-2",
     "b1-1e30-96e128-240g65038-131074b"]

/-- The versions of the standard in their order: the mark and the names of each. -/
def versions : List (String × List String) :=
  [("a", ["1.1", "v11"]), ("b", ["2.0", "v20"]), ("c", ["2.1", "v21"]), ("d", ["3.0", "v30"]),
   ("e", ["3.1", "v31"]), ("f", ["3.2", "v32"]), ("g", ["4.0", "v40"]), ("h", ["4.1", "v41"]),
   ("i", ["5.0", "v50"]), ("j", ["5.1", "v51"]), ("k", ["5.2", "v52"]), ("l", ["6.0", "v60"]),
   ("m", ["6.1", "v61"]), ("n", ["6.2", "v62"]), ("o", ["6.3", "v63"]), ("p", ["7.0", "v70"]),
   ("q", ["8.0", "v80"]), ("r", ["9.0", "v90"]), ("s", ["10.0", "v100"]), ("t", ["11.0", "v110"]),
   ("u", ["12.0", "v120"]), ("v", ["12.1", "v121"]), ("w", ["13.0", "v130"]),
   ("x", ["14.0", "v140"]), ("y", ["15.0", "v150"]), ("z", ["15.1", "v151"]),
   ("A", ["16.0", "v160"])]

/-- The characters that were assigned up to a version. -/
def ages : List NamedSet :=
  versions.mapIdx fun i version =>
    ⟨version.2, fun c => ((versions.take (i + 1)).map (·.1)).contains (ageRuns.mark c)⟩

end Versioning.Unicode
